import FlavorTable.Page.Draw

/-!
# What the containers of a page hold

A page is one list of events, and each event carries the containers around it.
`contents` looks into one outermost container and shows the events in it as
they would be without it, so it undoes `inside`.  `calls` forgets the
containers, and so does `saved`, which collects the texts that the page offers
to be saved.

All of them distribute over the parts that a page is drawn from, so what a tab
holds and what can be saved can be read off the parts.

## Main results

* `contents_inside_self`, `contents_inside_of_ne` — looking into a container
  and past it.
* `lacks_append`, `lacks_inside`, `lacks_showRows`, `lacks_answer` — calls that are not made.
* `saved_inside`, `saved_showRows` — what the parts of a page offer.
* `contents_answer_tableTab`, `contents_answer_textTab`, `saved_answer` — the
  same for the answer to a query.
-/

namespace FlavorTable.Page

/-! ## Looking into a container -/

/-- The event as seen from inside a container, if that is the outermost one around it. -/
def Event.seenIn? (container : Container) (event : Event) : Option Event :=
  match event.within with
  | [] => none
  | outermost :: inner => if outermost = container then some ⟨event.call, inner⟩ else none

/-- The events in an outermost container, as seen from inside. -/
def contents (container : Container) (events : List Event) : List Event :=
  events.filterMap (Event.seenIn? container)

@[simp] theorem contents_append (container : Container) (left right : List Event) :
    contents container (left ++ right) = contents container left ++ contents container right :=
  List.filterMap_append

@[simp] theorem contents_atTop (container : Container) (calls : List Call) :
    contents container (atTop calls) = [] := by
  rw [contents, atTop, List.filterMap_map, List.filterMap_eq_nil_iff]
  intro call _
  rfl

/-- Inside a container the events are the ones that it was opened around. -/
@[simp] theorem contents_inside_self (container : Container) (events : List Event) :
    contents container (inside container events) = events := by
  have hSeen : Event.seenIn? container ∘
      (fun event : Event => { event with within := container :: event.within }) = some := by
    funext event
    simp [Event.seenIn?]
  rw [contents, inside, List.filterMap_map, hSeen, List.filterMap_some]

/-- Other containers hold none of them. -/
theorem contents_inside_of_ne {container other : Container} (h : other ≠ container)
    (events : List Event) : contents container (inside other events) = [] := by
  rw [contents, inside, List.filterMap_map, List.filterMap_eq_nil_iff]
  intro event _
  simp [Event.seenIn?, h]

/-- The parts of a page outside of tabs hold nothing in a tab. -/
@[simp] theorem contents_frame (title : String) : contents (.tab title) frame = [] := by
  rw [frame, head, tableColumn, queryColumn, contents_append, contents_append, contents_atTop,
    contents_inside_of_ne (by simp), contents_inside_of_ne (by simp)]
  rfl

@[simp] theorem contents_showRows (container : Container) (title : String) (rows : List Row)
    (remark : Option String) : contents container (showRows title rows remark) = [] :=
  contents_atTop container _

@[simp] theorem contents_allRows (container : Container) (rows : List Row) :
    contents container (allRows rows) = [] := by
  simp [allRows]

@[simp] theorem contents_runButton (container : Container) : contents container runButton = [] :=
  contents_atTop container _

/-! ## Calls -/

/-- The calls that a page is drawn with, wherever they are made. -/
def calls (events : List Event) : List Call := events.map Event.call

@[simp] theorem calls_append (left right : List Event) :
    calls (left ++ right) = calls left ++ calls right :=
  List.map_append

@[simp] theorem calls_atTop (made : List Call) : calls (atTop made) = made := by
  rw [calls, atTop, List.map_map]
  exact List.map_id made

@[simp] theorem calls_inside (container : Container) (events : List Event) :
    calls (inside container events) = calls events := by
  rw [calls, inside, List.map_map]
  rfl

/-- No call of a kind is made. -/
def Lacks (kind : Call → Bool) (events : List Event) : Prop :=
  ∀ call ∈ calls events, kind call = false

section Lacks

variable {kind : Call → Bool}

@[simp] theorem lacks_nil : Lacks kind [] := by
  intro call hCall
  cases hCall

@[simp] theorem lacks_append {left right : List Event} :
    Lacks kind (left ++ right) ↔ Lacks kind left ∧ Lacks kind right := by
  simp only [Lacks, calls_append, List.mem_append, or_imp, forall_and]

@[simp] theorem lacks_atTop {made : List Call} :
    Lacks kind (atTop made) ↔ ∀ call ∈ made, kind call = false := by
  rw [Lacks, calls_atTop]

@[simp] theorem lacks_inside {container : Container} {events : List Event} :
    Lacks kind (inside container events) ↔ Lacks kind events := by
  rw [Lacks, calls_inside, Lacks]

theorem Lacks.any_eq_false {events : List Event} (h : Lacks kind events) :
    (calls events).any kind = false := by
  rw [List.any_eq_false]
  intro call hCall
  rw [h call hCall]
  exact Bool.false_ne_true

/-- Rows are shown by text, a table and a notice. -/
theorem lacks_showRows (hMarkdown : ∀ text, kind (.markdown text) = false)
    (hCaption : ∀ text, kind (.caption text) = false) (hInfo : ∀ text, kind (.info text) = false)
    (hTable : ∀ records, kind (.table records) = false) (title : String) (rows : List Row)
    (remark : Option String) : Lacks kind (showRows title rows remark) := by
  rw [showRows, lacks_atTop]
  cases remark <;> cases rows <;> simp [hMarkdown, hCaption, hInfo, hTable]

/-- Besides rows an answer has its notice, the containers around it, a text to be saved and a
grid. -/
theorem lacks_answer
    (hRows : ∀ title rows remark, Lacks kind (showRows title rows remark))
    (hSuccess : ∀ text, kind (.success text) = false)
    (hTabs : ∀ titles, kind (.tabs titles) = false)
    (hExpander : ∀ label, kind (.expander label) = false)
    (hDownload : ∀ label data fileName mime,
      kind (.downloadButton label data fileName mime) = false)
    (hCode : ∀ text language, kind (.code text language) = false)
    (request : Request) (plan : Plan) (compared : Option RowSet) :
    Lacks kind (answer request plan compared) := by
  have hCompared : Lacks kind ((compared.map (comparison plan)).getD []) := by
    cases compared with
    | none => exact lacks_nil
    | some found => simp [comparison, hRows, hExpander]
  have hTable : Lacks kind (resultTable plan.result) := by
    rw [resultTable, lacks_append]
    refine ⟨hRows _ _ _, ?_⟩
    split
    · exact lacks_nil
    · simp [hDownload]
  simp [answer, stages, resultText, hCompared, hTable, hRows, hSuccess, hTabs, hCode]

end Lacks

/-! ## Texts to be saved -/

/-- The text that a call offers to be saved, if it does. -/
def Call.saved? : Call → Option String
  | .downloadButton _ data _ _ => some data
  | _ => none

/-- The texts that a page offers to be saved, in order. -/
def saved (events : List Event) : List String := events.filterMap fun event => event.call.saved?

@[simp] theorem saved_append (left right : List Event) :
    saved (left ++ right) = saved left ++ saved right :=
  List.filterMap_append

theorem saved_atTop (calls : List Call) : saved (atTop calls) = calls.filterMap Call.saved? := by
  rw [saved, atTop, List.filterMap_map]
  rfl

/-- What can be saved does not depend on where it is offered. -/
@[simp] theorem saved_inside (container : Container) (events : List Event) :
    saved (inside container events) = saved events := by
  rw [saved, inside, List.filterMap_map]
  rfl

@[simp] theorem saved_frame : saved frame = [] := by
  simp only [frame, head, tableColumn, queryColumn, saved_append, saved_inside, saved_atTop]
  rfl

/-- Rows that are shown are not offered. -/
@[simp] theorem saved_showRows (title : String) (rows : List Row) (remark : Option String) :
    saved (showRows title rows remark) = [] := by
  rw [showRows, saved_atTop]
  cases remark <;> cases rows <;> rfl

@[simp] theorem saved_allRows (rows : List Row) : saved (allRows rows) = [] := by
  rw [allRows, saved_append, saved_showRows, saved_atTop]
  rfl

@[simp] theorem saved_runButton : saved runButton = [] := rfl

/-! ## The answer to a query -/

variable (request : Request) (plan : Plan) (compared : Option RowSet)

theorem contents_answer_tableTab :
    contents (.tab tableTab) (answer request plan compared) = resultTable plan.result := by
  have hStages : Container.tab stagesTab ≠ .tab tableTab := by decide
  have hText : Container.tab textTab ≠ .tab tableTab := by decide
  simp [answer, contents_inside_of_ne hStages, contents_inside_of_ne hText]

theorem contents_answer_textTab :
    contents (.tab textTab) (answer request plan compared) = resultText plan.result := by
  have hStages : Container.tab stagesTab ≠ .tab textTab := by decide
  have hTable : Container.tab tableTab ≠ .tab textTab := by decide
  simp [answer, contents_inside_of_ne hStages, contents_inside_of_ne hTable]

/-- The only text that an answer offers is its result as a table. -/
theorem saved_answer :
    saved (answer request plan compared) =
      if plan.result.rows.isEmpty then []
      else [Csv.write plan.result.rows Csv.defaultDelimiter] := by
  have hCompared : saved ((compared.map (comparison plan)).getD []) = [] := by
    cases compared with
    | none => rfl
    | some found =>
        rw [Option.map_some, Option.getD_some, comparison, saved_append, saved_inside,
          saved_showRows, saved_atTop]
        rfl
  have hTable : saved (resultTable plan.result) =
      if plan.result.rows.isEmpty then []
      else [Csv.write plan.result.rows Csv.defaultDelimiter] := by
    rw [resultTable, saved_append, saved_showRows]
    split <;> rfl
  simp only [answer, stages, resultText, saved_append, saved_inside, saved_showRows, saved_atTop,
    hCompared, hTable]
  exact List.append_nil _

end FlavorTable.Page
