import FlavorTable.Proofs.Page.Pressed

/-!
# How a run of the page ends

A run of the page ends in one of four ways.  A table that cannot be read stops
it.  With a table, it waits until the button is pressed.  With the button
pressed, it answers the query if there is a text in each of the three query
fields, and reports an unexpected failure otherwise.

Which of the four ways is due depends on the fields and the button only, and
which one was taken can be told from the page and its notes.  In particular a
table that cannot be read is the only cause of an error message, and a field
without a text is the only cause of an unexpected failure.

## Main results

* `Form.request_of_queryTexts`, `Form.request_of_null` — when the query fields
  can be read.
* `Ending.Shows.eq_ofPage` — a page shows one ending only.
* `page_ends_as_due` — every run ends as its fields and its button say.
-/

namespace FlavorTable.Page

/-! ## What a form holds -/

namespace Form

/-- The outcome of reading the table of a form. -/
def Reads (form : Form Entry) (outcome : Except Csv.Fault (List Row)) : Prop :=
  ∃ s, form.rowsText = .text s ∧ Csv.parse s = outcome

/-- There is a text in each of the query fields. -/
def QueryTexts (form : Form Entry) : Prop :=
  form.intersectFlavors ≠ .null ∧ form.makerSuffix ≠ .null ∧ form.unionFlavors ≠ .null

/-- The use that fails when a query field has no text.  The name lists are read before the
suffix. -/
def nullUse (form : Form Entry) : TextUse :=
  if form.intersectFlavors = .null ∨ form.unionFlavors = .null then .names else .suffix

variable {form : Form Entry}

theorem Reads.unique {left right : Except Csv.Fault (List Row)} (hLeft : form.Reads left)
    (hRight : form.Reads right) : left = right := by
  obtain ⟨s, hText, hParse⟩ := hLeft
  obtain ⟨t, hOther, hParseOther⟩ := hRight
  cases hText.symm.trans hOther
  rw [← hParse, hParseOther]

theorem request_of_queryTexts (h : form.QueryTexts) : ∃ request, form.request = .ok request := by
  obtain ⟨rowsText, intersect, suffix, union⟩ := form
  obtain ⟨hIntersect, hSuffix, hUnion⟩ := h
  cases intersect with
  | null => exact absurd rfl hIntersect
  | text =>
      cases union with
      | null => exact absurd rfl hUnion
      | text =>
          cases suffix with
          | null => exact absurd rfl hSuffix
          | text => exact ⟨_, rfl⟩

theorem request_of_null (h : ¬ form.QueryTexts) :
    form.request = .error (.nullText form.nullUse) := by
  obtain ⟨rowsText, intersect, suffix, union⟩ := form
  cases intersect with
  | null => rfl
  | text =>
      cases union with
      | null => rfl
      | text =>
          cases suffix with
          | null => rfl
          | text => exact absurd ⟨nofun, nofun, nofun⟩ h

/-- A table field that is not null has a text once it is filled. -/
theorem exists_text_fill {initial : Form (Option Entry)} (h : initial.rowsText ≠ some .null) :
    ∃ s, initial.fill.rowsText = .text s := by
  obtain ⟨rowsText, intersect, suffix, union⟩ := initial
  cases rowsText with
  | none => exact ⟨_, rfl⟩
  | some entry =>
      cases entry with
      | null => exact absurd rfl h
      | text s => exact ⟨s, rfl⟩

end Form

/-! ## The four endings -/

/-- The call reports that something went wrong. -/
def Call.isFailure : Call → Bool
  | .error _ | .exception _ => true
  | _ => false

/-- The call asks for the button. -/
def Call.isButton : Call → Bool
  | .button .. => true
  | _ => false

/-- The ways in which a run can end. -/
inductive Ending where
  /-- The table cannot be read. -/
  | refused
  /-- The button is not pressed. -/
  | waiting
  | answered
  /-- A query field has no text. -/
  | unexpected
  deriving DecidableEq, Repr

/-- The ending that the fields and the button ask for. -/
inductive Ending.Due (form : Form Entry) (controls : Controls) : Ending → Prop where
  | refused {fault : Csv.Fault} (hReads : form.Reads (.error fault)) : Due form controls .refused
  | waiting {rows : List Row} (hReads : form.Reads (.ok rows))
      (hPressed : controls.pressed = false) : Due form controls .waiting
  | answered {rows : List Row} (hReads : form.Reads (.ok rows))
      (hPressed : controls.pressed = true) (hTexts : form.QueryTexts) : Due form controls .answered
  | unexpected {rows : List Row} (hReads : form.Reads (.ok rows))
      (hPressed : controls.pressed = true) (hNull : ¬ form.QueryTexts) :
      Due form controls .unexpected

/-- The page ends with an error message on its table, before the button.  Nothing else went
wrong. -/
structure Refused (fault : Csv.Fault) (page : Rendering) (notes : List Note) : Prop where
  stopped : page.stopped = true
  last : ∃ earlier, Lacks Call.isFailure earlier ∧ page.events = earlier ++
    atTop [.error ("MalformedRowError while parsing rows: " ++ fault.message), .stop]
  unasked : Lacks Call.isButton page.events
  notes : notes = []

/-- The page ends with a hint on the button, and nothing was looked up. -/
structure Waiting (rows : List Row) (page : Rendering) (notes : List Note) : Prop where
  stopped : page.stopped = false
  last : ∃ earlier, page.events = earlier ++ atTop [.info "Set the query parameters and press Run."]
  clean : Lacks Call.isFailure page.events
  notes : notes = [Engine.buildNote rows]

/-- Nothing went wrong on the page.  The plan was executed step by step, and a warning was left
only if the base flavor seek was made beside it. -/
structure Answered (rows : List Row) (request : Request) (compare : Bool) (page : Rendering)
    (notes : List Note) : Prop where
  stopped : page.stopped = false
  clean : Lacks Call.isFailure page.events
  logged : notes.filter (fun note => note.level ≠ .warning) =
    Engine.buildNote rows :: planNotes (Engine.holding rows) request
  warned : notes.filter (fun note => note.level = .warning) =
    if compare then [.baseFlavorSeek] else []

/-- The page ends with a report on a field without a text, right after the button.  Nothing else
went wrong, and nothing was looked up. -/
structure Unexpected (rows : List Row) (use : TextUse) (page : Rendering) (notes : List Note) :
    Prop where
  stopped : page.stopped = false
  last : ∃ earlier, Lacks Call.isFailure earlier ∧ Lacks Call.isButton earlier ∧
    page.events = earlier ++ runButton ++
      atTop [.exception ("AttributeError: 'NoneType' object has no attribute '" ++
        use.operation ++ "'")]
  notes : notes = [Engine.buildNote rows]

/-- The ending that a page and its notes show. -/
inductive Ending.Shows (form : Form Entry) (controls : Controls) (page : Rendering)
    (notes : List Note) : Ending → Prop where
  | refused {fault : Csv.Fault} (hReads : form.Reads (.error fault))
      (h : Refused fault page notes) : Shows form controls page notes .refused
  | waiting {rows : List Row} (hReads : form.Reads (.ok rows)) (h : Waiting rows page notes) :
      Shows form controls page notes .waiting
  | answered {rows : List Row} {request : Request} (hReads : form.Reads (.ok rows))
      (hRequest : form.request = .ok request)
      (h : Answered rows request controls.compare page notes) :
      Shows form controls page notes .answered
  | unexpected {rows : List Row} (hReads : form.Reads (.ok rows))
      (h : Unexpected rows form.nullUse page notes) : Shows form controls page notes .unexpected

/-! ## Telling the endings apart -/

/-- The ending, as it can be told from the page and its notes. -/
def Ending.ofPage (page : Rendering) (notes : List Note) : Ending :=
  if page.stopped then .refused
  else if 1 < notes.length then .answered
  else if (calls page.events).any Call.isFailure then .unexpected
  else .waiting

/-- A page shows one ending only. -/
theorem Ending.Shows.eq_ofPage {form : Form Entry} {controls : Controls} {page : Rendering}
    {notes : List Note} {ending : Ending} (h : ending.Shows form controls page notes) :
    ending = .ofPage page notes := by
  cases h with
  | refused _ h => rw [ofPage, if_pos h.stopped]
  | waiting _ h => simp [ofPage, h.stopped, h.notes, h.clean.any_eq_false]
  | answered _ _ h =>
      -- The notes that are logged are five by themselves.
      have hLogged := congrArg List.length h.logged
      have hMany : 1 < notes.length := by
        have hLe := List.length_filter_le (fun note => decide (note.level ≠ .warning)) notes
        simp only [planNotes, List.length_cons, List.length_nil] at hLogged
        omega
      simp [ofPage, h.stopped, hMany]
  | unexpected _ h =>
      obtain ⟨earlier, -, -, hEvents⟩ := h.last
      simp [ofPage, h.stopped, h.notes, hEvents, Call.isFailure]

/-! ## What is drawn -/

theorem lacks_isFailure_showRows (title : String) (rows : List Row) (remark : Option String) :
    Lacks Call.isFailure (showRows title rows remark) :=
  lacks_showRows (fun _ => rfl) (fun _ => rfl) (fun _ => rfl) (fun _ => rfl) title rows remark

theorem lacks_isButton_showRows (title : String) (rows : List Row) (remark : Option String) :
    Lacks Call.isButton (showRows title rows remark) :=
  lacks_showRows (fun _ => rfl) (fun _ => rfl) (fun _ => rfl) (fun _ => rfl) title rows remark

theorem lacks_isFailure_frame : Lacks Call.isFailure frame := by
  simp [frame, head, tableColumn, queryColumn, Call.isFailure]

theorem lacks_isButton_frame : Lacks Call.isButton frame := by
  simp [frame, head, tableColumn, queryColumn, Call.isButton]

theorem lacks_isFailure_allRows (rows : List Row) : Lacks Call.isFailure (allRows rows) := by
  simp [allRows, lacks_isFailure_showRows, Call.isFailure]

theorem lacks_isButton_allRows (rows : List Row) : Lacks Call.isButton (allRows rows) := by
  simp [allRows, lacks_isButton_showRows, Call.isButton]

/-- Up to the button nothing goes wrong. -/
theorem lacks_isFailure_upToButton (rows : List Row) :
    Lacks Call.isFailure (frame ++ allRows rows ++ runButton) := by
  simp [lacks_isFailure_frame, lacks_isFailure_allRows, runButton, Call.isFailure]

/-- An answer reports no failure. -/
theorem lacks_isFailure_answer (request : Request) (plan : Plan) (compared : Option RowSet) :
    Lacks Call.isFailure (answer request plan compared) :=
  lacks_answer lacks_isFailure_showRows (fun _ => rfl) (fun _ => rfl) (fun _ => rfl)
    (fun _ _ _ _ => rfl) (fun _ _ => rfl) request plan compared

theorem unexpected_nullText (use : TextUse) :
    unexpected (.nullText use) =
      atTop [.exception ("AttributeError: 'NoneType' object has no attribute '" ++
        use.operation ++ "'")] := by
  have hStart : "AttributeError: 'NoneType' object has no attribute '" =
      "AttributeError: " ++ "'NoneType' object has no attribute '" := rfl
  simp only [unexpected, Failure.message?, Option.getD_some, hStart, String.append_assoc]

/-! ## Every run -/

variable {initial : Form (Option Entry)} {controls : Controls} {rows : List Row}

theorem ends_refused (controls : Controls) {fault : Csv.Fault}
    (hReads : initial.fill.Reads (.error fault)) :
    ∃ page notes, render initial controls = ⟨.ok page, notes⟩ ∧ Refused fault page notes := by
  obtain ⟨s, hText, hParse⟩ := hReads
  refine ⟨_, _, render_of_fault hText hParse, rfl,
    ⟨frame, lacks_isFailure_frame, rfl⟩, ?_, rfl⟩
  exact lacks_append.mpr ⟨lacks_isButton_frame, by simp [refusal, Call.isButton]⟩

theorem ends_waiting (hReads : initial.fill.Reads (.ok rows))
    (hPressed : controls.pressed = false) :
    ∃ page notes, render initial controls = ⟨.ok page, notes⟩ ∧ Waiting rows page notes := by
  obtain ⟨s, hText, hParse⟩ := hReads
  refine ⟨_, _, render_of_not_pressed hText hParse hPressed, rfl, ⟨_, rfl⟩, ?_, rfl⟩
  exact lacks_append.mpr ⟨lacks_isFailure_upToButton rows, by simp [waitingPart, Call.isFailure]⟩

theorem ends_answered {request : Request} (hReads : initial.fill.Reads (.ok rows))
    (hPressed : controls.pressed = true) (hRequest : initial.fill.request = .ok request) :
    ∃ page notes, render initial controls = ⟨.ok page, notes⟩ ∧
      Answered rows request controls.compare page notes := by
  obtain ⟨s, hText, hParse⟩ := hReads
  have hLast := pressedPart_of_request hRequest (Engine.holding rows) controls.compare
  refine ⟨_, _, render_of_pressed hText hParse hPressed hLast, rfl, ?_, ?_, ?_⟩
  · exact lacks_append.mpr ⟨lacks_isFailure_upToButton rows, lacks_isFailure_answer _ _ _⟩
  · cases controls.compare <;> rfl
  · cases controls.compare <;> rfl

theorem ends_unexpected (hReads : initial.fill.Reads (.ok rows))
    (hPressed : controls.pressed = true) (hNull : ¬ initial.fill.QueryTexts) :
    ∃ page notes, render initial controls = ⟨.ok page, notes⟩ ∧
      Unexpected rows initial.fill.nullUse page notes := by
  obtain ⟨s, hText, hParse⟩ := hReads
  have hLast : pressedPart (Engine.holding rows) initial.fill controls.compare =
      ⟨.ok (unexpected (.nullText initial.fill.nullUse)), []⟩ := by
    rw [pressedPart, Form.request_of_null hNull]
    rfl
  refine ⟨_, _, render_of_pressed hText hParse hPressed hLast, rfl,
    ⟨frame ++ allRows rows, ?_, ?_, ?_⟩, rfl⟩
  · exact lacks_append.mpr ⟨lacks_isFailure_frame, lacks_isFailure_allRows rows⟩
  · exact lacks_append.mpr ⟨lacks_isButton_frame, lacks_isButton_allRows rows⟩
  · rw [unexpected_nullText]

/-- A run whose table field holds a text ends as it is due. -/
theorem exists_ending (controls : Controls) {s : String}
    (hText : initial.fill.rowsText = .text s) :
    ∃ page notes, ∃ ending : Ending, render initial controls = ⟨.ok page, notes⟩ ∧
      ending.Due initial.fill controls ∧ ending.Shows initial.fill controls page notes := by
  cases hParse : Csv.parse s with
  | error fault =>
      have hReads : initial.fill.Reads (.error fault) := ⟨s, hText, hParse⟩
      obtain ⟨page, notes, hRender, hEnds⟩ := ends_refused controls hReads
      exact ⟨page, notes, .refused, hRender, .refused hReads, .refused hReads hEnds⟩
  | ok rows =>
      have hReads : initial.fill.Reads (.ok rows) := ⟨s, hText, hParse⟩
      cases hPressed : controls.pressed with
      | false =>
          obtain ⟨page, notes, hRender, hEnds⟩ := ends_waiting hReads hPressed
          exact ⟨page, notes, .waiting, hRender, .waiting hReads hPressed, .waiting hReads hEnds⟩
      | true =>
          by_cases hTexts : initial.fill.QueryTexts
          · obtain ⟨request, hRequest⟩ := Form.request_of_queryTexts hTexts
            obtain ⟨page, notes, hRender, hEnds⟩ := ends_answered hReads hPressed hRequest
            exact ⟨page, notes, .answered, hRender, .answered hReads hPressed hTexts,
              .answered hReads hRequest hEnds⟩
          · obtain ⟨page, notes, hRender, hEnds⟩ := ends_unexpected hReads hPressed hTexts
            exact ⟨page, notes, .unexpected, hRender, .unexpected hReads hPressed hTexts,
              .unexpected hReads hEnds⟩

/-- **Every run of the page ends as its fields and its button say.** Unless its
table field is null, a run never fails: it draws a page that shows the ending
that is due, and no other. -/
theorem page_ends_as_due (initial : Form (Option Entry)) (controls : Controls)
    (hRowsText : initial.rowsText ≠ some .null) :
    ∃ page notes, ∃ ending : Ending, render initial controls = ⟨.ok page, notes⟩ ∧
      ending.Due initial.fill controls ∧ ending.Shows initial.fill controls page notes ∧
      ∀ other : Ending, other.Shows initial.fill controls page notes → other = ending := by
  obtain ⟨s, hText⟩ := Form.exists_text_fill hRowsText
  obtain ⟨page, notes, ending, hRender, hDue, hShows⟩ := exists_ending controls hText
  exact ⟨page, notes, ending, hRender, hDue, hShows,
    fun other hOther => hOther.eq_ofPage.trans hShows.eq_ofPage.symm⟩

/-- A form that was never filled, but for a suffix that is no text. -/
def unsuffixed : Form (Option Entry) where
  rowsText := some (.text "table\nBen Co,Mint,Misc")
  intersectFlavors := none
  makerSuffix := some .null
  unionFlavors := none

theorem page_ends_unsuffixed :
    ∃ page, render unsuffixed ⟨true, true⟩ = ⟨.ok page, [.indexesBuilt 1 1 1 1]⟩ ∧
      page.events.getLast? =
        some ⟨.exception "AttributeError: 'NoneType' object has no attribute 'strip'", []⟩ := by
  have hTable : unsuffixed.fill.Reads (.ok [⟨"Ben Co", "Mint", "Misc"⟩]) := ⟨_, rfl, rfl⟩
  obtain ⟨page, notes, ending, hRender, hDue, hShows, -⟩ :=
    page_ends_as_due unsuffixed ⟨true, true⟩ (by decide)
  cases hDue with
  | refused hReads => cases hReads.unique hTable
  | waiting _ hPressed => cases hPressed
  | answered _ _ hTexts => exact absurd rfl hTexts.2.1
  | unexpected =>
      cases hShows with
      | unexpected hReads h =>
          cases hReads.unique hTable
          obtain ⟨earlier, -, -, hEvents⟩ := h.last
          refine ⟨page, ?_, ?_⟩
          · rw [hRender, h.notes]
            rfl
          · rw [hEvents, List.getLast?_append]
            rfl

end FlavorTable.Page
