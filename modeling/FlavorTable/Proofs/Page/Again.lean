import FlavorTable.Proofs.Csv.RoundTrip
import FlavorTable.Proofs.Page.Endings

/-!
# Running the page again

A run of the page fills the fields that were never filled and leaves what the
visitor typed as it is.  Whatever else it does, it does with the filled form:
how it began is no longer seen.  Filling a complete form changes nothing, so a
run that begins with the form of an earlier one is that run again, whichever
way it ended.

A table field that was never filled gets the sample table, as the writer of
tables puts it.  The reader gets the same rows from it, so such a run is not
stopped, and the sample table is the first that it shows.

## Main results

* `Form.get_fill` — what a field holds after the form was filled.
* `render_cases` — the two shapes of a page that was drawn.
* `render_complete_fill` — a run is determined by the form as it fills it.
* `stopped_iff` — a page is ended early by a call and not otherwise.
* `parse_default_rowsText` — the table that a form begins with is read.
* `rerun_draws_same_page` — two runs of the page, the second after the first.
-/

namespace FlavorTable.Page

/-! ## Fields -/

namespace Form

/-- The names of the fields. -/
inductive Field where
  | rowsText
  | intersectFlavors
  | makerSuffix
  | unionFlavors
  deriving DecidableEq, Repr

variable {α : Type}

/-- What a form has in a field. -/
def get (form : Form α) : Field → α
  | .rowsText => form.rowsText
  | .intersectFlavors => form.intersectFlavors
  | .makerSuffix => form.makerSuffix
  | .unionFlavors => form.unionFlavors

/-- A form with texts in some of its fields, as a run begins with it. -/
def given (form : Form (Option String)) : Form (Option Entry) where
  rowsText := form.rowsText.map .text
  intersectFlavors := form.intersectFlavors.map .text
  makerSuffix := form.makerSuffix.map .text
  unionFlavors := form.unionFlavors.map .text

theorem get_given (form : Form (Option String)) (field : Field) :
    form.given.get field = (form.get field).map .text := by
  cases field <;> rfl

/-- A field that was filled keeps what it holds, and the others get their defaults. -/
theorem get_fill (form : Form (Option Entry)) (field : Field) :
    form.fill.get field = (form.get field).getD (.text (default.get field)) := by
  cases field <;> rw [get, get, get, fill]

/-- A field of texts holds a text after the form was filled. -/
theorem get_fill_given (form : Form (Option String)) (field : Field) :
    form.given.fill.get field = .text ((form.get field).getD (default.get field)) := by
  rw [get_fill, get_given]
  cases form.get field <;> rfl

end Form

/-- Only a text can be used, and it is used as it is. -/
theorem Entry.textFor_eq_ok_iff {entry : Entry} {use : TextUse} {s : String} :
    entry.textFor use = .ok s ↔ entry = .text s := by
  cases entry <;> simp [textFor]

/-! ## What a run draws -/

/-- What a page with a table ends with, after the button. -/
inductive LastPart : List Event → Prop where
  | waiting : LastPart waitingPart
  | unexpected (failure : Failure) : LastPart (unexpected failure)
  | answer (request : Request) (plan : Plan) (compared : Option RowSet) :
      LastPart (answer request plan compared)

theorem lastPart_of_pressed {engine : Engine} {form : Form Entry} {compare : Bool}
    {last : List Event} (h : (pressedPart engine form compare).outcome = .ok last) :
    LastPart last := by
  cases hRequest : form.request with
  | error failure =>
      simp only [pressedPart, hRequest, Run.pure_def] at h
      cases h
      exact .unexpected failure
  | ok request =>
      rw [pressedPart_of_request hRequest] at h
      cases h
      exact .answer _ _ _

section Render

variable {initial : Form (Option Entry)} {controls : Controls} {page : Rendering}

/-- A page that was drawn has read its table field, and either ends there or shows the rows and
goes on with the button. -/
theorem render_cases (h : (render initial controls).outcome = .ok page) :
    ∃ s, initial.fill.rowsText = .text s ∧
      ((∃ fault, Csv.parse s = .error fault ∧
          page = ⟨frame ++ refusal fault, initial.fill, true⟩) ∨
        ∃ rows last, Csv.parse s = .ok rows ∧ LastPart last ∧
          page = ⟨frame ++ allRows rows ++ runButton ++ last, initial.fill, false⟩) := by
  obtain ⟨s, hRead, hRest⟩ := Run.outcome_bind_eq_ok_iff.mp h
  have hText : initial.fill.rowsText = .text s :=
    Entry.textFor_eq_ok_iff.mp (Run.outcome_ofExcept_eq_ok_iff.mp hRead)
  refine ⟨s, hText, ?_⟩
  cases hParse : Csv.parse s with
  | error fault =>
      simp only [hParse, Run.pure_def] at hRest
      exact .inl ⟨fault, rfl, (Except.ok.inj hRest).symm⟩
  | ok rows =>
      simp only [hParse] at hRest
      obtain ⟨engine, -, hRest⟩ := Run.outcome_bind_eq_ok_iff.mp hRest
      split at hRest
      · obtain ⟨last, hLast, hPage⟩ := Run.outcome_bind_eq_ok_iff.mp hRest
        exact .inr ⟨rows, last, rfl, lastPart_of_pressed hLast, (Except.ok.inj hPage).symm⟩
      · exact .inr ⟨rows, waitingPart, rfl, .waiting, (Except.ok.inj hRest).symm⟩

/-- The form of a page is the filled form that its run began with. -/
theorem form_of_render (h : (render initial controls).outcome = .ok page) :
    page.form = initial.fill := by
  obtain ⟨s, -, ⟨fault, -, rfl⟩ | ⟨rows, last, -, -, rfl⟩⟩ := render_cases h
  · rfl
  · rfl

/-- A run is determined by the form as it fills it. -/
theorem render_complete_fill (initial : Form (Option Entry)) (controls : Controls) :
    render initial.fill.complete controls = render initial controls := by
  simp only [render, Form.fill_complete]

end Render

/-! ## Stopping -/

/-- The call ends the page. -/
def Call.isStop : Call → Bool
  | .stop => true
  | _ => false

theorem lacks_isStop_showRows (title : String) (rows : List Row) (remark : Option String) :
    Lacks Call.isStop (showRows title rows remark) :=
  lacks_showRows (fun _ => rfl) (fun _ => rfl) (fun _ => rfl) (fun _ => rfl) title rows remark

theorem LastPart.lacks_isStop {last : List Event} (h : LastPart last) :
    Lacks Call.isStop last := by
  cases h with
  | waiting => simp [waitingPart, Call.isStop]
  | unexpected => simp [Page.unexpected, Call.isStop]
  | answer request plan compared =>
      exact lacks_answer lacks_isStop_showRows (fun _ => rfl) (fun _ => rfl) (fun _ => rfl)
        (fun _ _ _ _ => rfl) (fun _ _ => rfl) request plan compared

/-- A page says that it was ended early if that call was made. -/
theorem stopped_iff {initial : Form (Option Entry)} {controls : Controls} {page : Rendering}
    (h : (render initial controls).outcome = .ok page) :
    page.stopped = true ↔ Call.stop ∈ calls page.events := by
  obtain ⟨s, -, ⟨fault, -, rfl⟩ | ⟨rows, last, -, hLast, rfl⟩⟩ := render_cases h
  · simp [refusal]
  · have hFrame : Lacks Call.isStop frame := by
      unfold Lacks
      decide
    have hLacks : Lacks Call.isStop (frame ++ allRows rows ++ runButton ++ last) := by
      simp [hFrame, allRows, runButton, lacks_isStop_showRows, hLast.lacks_isStop, Call.isStop]
    refine iff_of_false Bool.false_ne_true fun hStop => ?_
    cases hLacks _ hStop

/-! ## Tables that are shown -/

/-- The records that a call shows as a table, if it does. -/
def Call.table? : Call → Option (List Record)
  | .table records => some records
  | _ => none

/-- The tables that a page shows, in order. -/
def tables (events : List Event) : List (List Record) := (calls events).filterMap Call.table?

theorem tables_append (left right : List Event) :
    tables (left ++ right) = tables left ++ tables right := by
  rw [tables, calls_append, List.filterMap_append]
  rfl

theorem tables_frame : tables frame = [] := rfl

/-- Rows are shown in one table. -/
theorem tables_allRows {rows : List Row} (h : rows ≠ []) :
    tables (allRows rows) = [Row.records rows] := by
  obtain ⟨row, rest, rfl⟩ := List.exists_cons_of_ne_nil h
  rfl

/-- The first table of a page is the one that it was given. -/
theorem head?_tables_of_rows {rows : List Row} (h : rows ≠ []) (after : List Event) :
    (tables (frame ++ allRows rows ++ after)).head? = some (Row.records rows) := by
  rw [tables_append, tables_append, tables_frame, tables_allRows h]
  rfl

/-! ## The table that a form begins with -/

/-- The text of the sample table is read, in ascending order. -/
theorem parse_default_rowsText :
    Csv.parse Form.default.rowsText = .ok (Row.sorted Row.sample) := by
  simp only [Form.default]
  exact Csv.parse_write (by decide)

/-- A run whose table field was never filled is not stopped, and shows the sample table first. -/
theorem shows_sample {initial : Form (Option Entry)} {controls : Controls} {page : Rendering}
    (hRowsText : initial.rowsText = none)
    (hPage : (render initial controls).outcome = .ok page) :
    page.stopped = false ∧ Call.stop ∉ calls page.events ∧
      (tables page.events).head? = some (Row.records Row.sample) := by
  have hDefault : initial.fill.rowsText = .text Form.default.rowsText := by
    rw [Form.fill, hRowsText]
    rfl
  have hSorted : (Row.sorted Row.sample).Perm Row.sample := Row.sorted_perm _
  have hNil : Row.sorted Row.sample ≠ [] := fun hNil => by
    rw [hNil] at hSorted
    cases hSorted.nil_eq
  rw [← stopped_iff hPage]
  obtain ⟨s, hText, hCases⟩ := render_cases hPage
  have hSame : s = Form.default.rowsText := Entry.text.inj (hText.symm.trans hDefault)
  rw [hSame, parse_default_rowsText] at hCases
  obtain ⟨fault, hFault, -⟩ | ⟨rows, last, hRows, -, rfl⟩ := hCases
  · cases hFault
  · obtain rfl := Except.ok.inj hRows
    refine ⟨rfl, Bool.false_ne_true, ?_⟩
    rw [List.append_assoc, head?_tables_of_rows hNil, Row.records_eq_of_perm hSorted]

/-! ## Two runs -/

/-- **Running the page again changes nothing.** A run that begins with texts in
some of the fields draws a page.  Its form has these texts, and the defaults in
the other fields.  A second run from that form draws the same page, with the
same form, and leaves the same notes.  If the table field was never filled, the
run is not stopped and the sample table is the first that it shows. -/
theorem rerun_draws_same_page (form : Form (Option String)) (controls : Controls) :
    ∃ page notes, render form.given controls = ⟨.ok page, notes⟩ ∧
      (∀ field, page.form.get field = .text ((form.get field).getD (Form.default.get field))) ∧
      render page.form.complete controls = ⟨.ok page, notes⟩ ∧
      (form.rowsText = none →
        page.stopped = false ∧ Call.stop ∉ calls page.events ∧
          (tables page.events).head? = some (Row.records Row.sample)) := by
  have hText : form.given.fill.rowsText = _ := form.get_fill_given .rowsText
  obtain ⟨page, notes, -, hRender, -, -⟩ := exists_ending controls hText
  have hPage : (render form.given controls).outcome = .ok page := by rw [hRender]
  have hForm : page.form = form.given.fill := form_of_render hPage
  refine ⟨page, notes, hRender, ?_, ?_, ?_⟩
  · intro field
    rw [hForm, Form.get_fill_given]
  · rw [hForm, render_complete_fill, hRender]
  · intro hNone
    have hRowsText : form.given.rowsText = none := by rw [Form.given, hNone]; rfl
    exact shows_sample hRowsText hPage

end FlavorTable.Page
