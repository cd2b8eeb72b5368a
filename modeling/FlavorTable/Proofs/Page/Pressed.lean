import FlavorTable.Page.Render
import FlavorTable.Proofs.Engine.Building
import FlavorTable.Proofs.Page.Containers
import FlavorTable.Proofs.Query.Requery

/-!
# The page after the button was pressed

When all four fields hold texts, a run of the page with the button pressed
ends in one of two ways.  A table that cannot be read stops it.  Otherwise the
page answers the request in its fields from the table in its first field: it
draws the plan of the query, and with it the base flavor seek if the
comparison is switched on.

The plan is made of lookups in the table, so what the page draws is given here
as a list of events without any run left in it.

## Main results

* `outcome_render_of_parse`, `outcome_render_of_fault` — the two ways in which a
  run ends.
* `exists_render` — the page is drawn, whatever the texts are.
* `contents_drawn_tableTab`, `contents_drawn_textTab`, `saved_drawn` — what is
  shown and offered of the result.
-/

namespace FlavorTable

namespace Page

/-! ## Forms of texts -/

namespace Form

/-- A form with a text in every field, as it is used. -/
def texts (form : Form String) : Form Entry where
  rowsText := .text form.rowsText
  intersectFlavors := .text form.intersectFlavors
  makerSuffix := .text form.makerSuffix
  unionFlavors := .text form.unionFlavors

/-- A form with a text in every field, as a run begins with it. -/
def typed (form : Form String) : Form (Option Entry) := form.texts.complete

/-- What the texts of a form ask for. -/
def asked (form : Form String) : Request :=
  ⟨Text.names form.intersectFlavors, Text.strip form.makerSuffix, Text.names form.unionFlavors⟩

theorem request_texts (form : Form String) : form.texts.request = .ok form.asked := rfl

end Form

/-! ## What is drawn -/

/-- The plan for a request on an engine. -/
def planOf (engine : Engine) (request : Request) : Plan :=
  .ofLookups (engine.rowsByFlavor (TextKeys.list request.intersect).keys)
    (engine.rowsByMaker (.text request.suffix))
    (engine.rowsByFlavor (TextKeys.list request.union).keys)

/-- The notes that the plan for a request leaves. -/
def planNotes (engine : Engine) (request : Request) : List Note :=
  [engine.seekNote (TextKeys.list request.intersect).keys, engine.scanNote (.text request.suffix),
    engine.seekNote (TextKeys.list request.union).keys, (planOf engine request).note]

theorem plan_query (engine : Engine) (request : Request) :
    engine.plan request.query = ⟨.ok (planOf engine request), planNotes engine request⟩ := by
  have hLookups : engine.lookups request.query = _ :=
    Engine.lookups_of_keys (TextKeys.list request.intersect).keys_value
      (TextKeys.list request.union).keys_value
  exact Engine.plan_of_lookups_ok hLookups

theorem outcome_plan_query (engine : Engine) (request : Request) :
    (engine.plan request.query).outcome = .ok (planOf engine request) := by
  rw [plan_query]

/-- The result of the plan is the answer to the query. -/
theorem result_planOf (engine : Engine) (request : Request) :
    (planOf engine request).result =
      engine.selection (.list request.intersect) request.suffix (.list request.union) :=
  rfl

/-- The base flavor seek beside the answer, if there is to be one. -/
def comparedOf (engine : Engine) (request : Request) (compare : Bool) : Option RowSet :=
  if compare then some (engine.rowsByBaseFlavor (TextKeys.list request.union).keys) else none

theorem baseFlavorSeek_names (engine : Engine) (names : List String) :
    engine.baseFlavorSeek (Request.nameList names) =
      ⟨.ok (engine.rowsByBaseFlavor (TextKeys.list names).keys), [.baseFlavorSeek]⟩ := by
  have hKeys : (Request.nameList names).keys = .ok (TextKeys.list names).keys :=
    (TextKeys.list names).keys_value
  rw [Engine.baseFlavorSeek, hKeys]
  rfl

/-- The note of the comparison, if there is to be one. -/
def comparedNotes (compare : Bool) : List Note := if compare then [.baseFlavorSeek] else []

/-- A request that can be read is answered. -/
theorem pressedPart_of_request {form : Form Entry} {request : Request}
    (h : form.request = .ok request) (engine : Engine) (compare : Bool) :
    pressedPart engine form compare =
      ⟨.ok (answer request (planOf engine request) (comparedOf engine request compare)),
        planNotes engine request ++ comparedNotes compare⟩ := by
  rw [pressedPart, h]
  cases compare with
  | false => simp [plan_query, comparedOf, comparedNotes]
  | true => simp [plan_query, baseFlavorSeek_names, comparedOf, comparedNotes]

section Render

variable {initial : Form (Option Entry)} {controls : Controls} {s : String} {rows : List Row}

/-- Until the button is pressed the page shows its table and waits. -/
theorem render_of_not_pressed (hText : initial.fill.rowsText = .text s)
    (hParse : Csv.parse s = .ok rows) (hPressed : controls.pressed = false) :
    render initial controls =
      ⟨.ok ⟨frame ++ allRows rows ++ runButton ++ waitingPart, initial.fill, false⟩,
        [Engine.buildNote rows]⟩ := by
  simp [render, hText, Entry.textFor, hParse, Engine.ofRows_eq, hPressed]

/-- With the button pressed the page goes on below it. -/
theorem render_of_pressed {last : List Event} {notes : List Note}
    (hText : initial.fill.rowsText = .text s) (hParse : Csv.parse s = .ok rows)
    (hPressed : controls.pressed = true)
    (hLast : pressedPart (Engine.holding rows) initial.fill controls.compare = ⟨.ok last, notes⟩) :
    render initial controls =
      ⟨.ok ⟨frame ++ allRows rows ++ runButton ++ last, initial.fill, false⟩,
        Engine.buildNote rows :: notes⟩ := by
  simp [render, hText, Entry.textFor, hParse, Engine.ofRows_eq, hPressed, hLast]

end Render

variable (form : Form String) (compare : Bool)

/-- The events of a page whose table holds the given rows. -/
def drawn (rows : List Row) : List Event :=
  frame ++ allRows rows ++ runButton ++
    answer form.asked (planOf (Engine.holding rows) form.asked)
      (comparedOf (Engine.holding rows) form.asked compare)

theorem outcome_render_of_parse {rows : List Row} (h : Csv.parse form.rowsText = .ok rows) :
    (render form.typed ⟨true, compare⟩).outcome =
      .ok ⟨drawn form compare rows, form.texts, false⟩ := by
  have hText : form.typed.fill.rowsText = .text form.rowsText := rfl
  have hLast := pressedPart_of_request (Form.request_texts form) (Engine.holding rows) compare
  have hRender : render form.typed ⟨true, compare⟩ = _ := render_of_pressed hText h rfl hLast
  rw [hRender]
  rfl

theorem outcome_render_of_fault {fault : Csv.Fault} (h : Csv.parse form.rowsText = .error fault) :
    (render form.typed ⟨true, compare⟩).outcome =
      .ok ⟨frame ++ refusal fault, form.texts, true⟩ := by
  have hText : form.typed.fill.rowsText = .text form.rowsText := rfl
  rw [render_of_fault hText h]
  rfl

/-- The page is drawn, also if its table cannot be read. -/
theorem exists_render : ∃ page, (render form.typed ⟨true, compare⟩).outcome = .ok page := by
  cases hParse : Csv.parse form.rowsText with
  | error fault => exact ⟨_, outcome_render_of_fault form compare hParse⟩
  | ok rows => exact ⟨_, outcome_render_of_parse form compare hParse⟩

/-! ## Parts of what is drawn -/

variable {form compare} {rows : List Row}

theorem contents_drawn_tableTab :
    contents (.tab tableTab) (drawn form compare rows) =
      resultTable (planOf (Engine.holding rows) form.asked).result := by
  simp [drawn, contents_answer_tableTab]

theorem contents_drawn_textTab :
    contents (.tab textTab) (drawn form compare rows) =
      resultText (planOf (Engine.holding rows) form.asked).result := by
  simp [drawn, contents_answer_textTab]

theorem saved_drawn :
    saved (drawn form compare rows) =
      if (planOf (Engine.holding rows) form.asked).result.rows.isEmpty then []
      else [Csv.write (planOf (Engine.holding rows) form.asked).result.rows
        Csv.defaultDelimiter] := by
  simp [drawn, saved_answer]

theorem saved_refusal (fault : Csv.Fault) : saved (refusal fault) = [] := rfl

end Page

end FlavorTable
