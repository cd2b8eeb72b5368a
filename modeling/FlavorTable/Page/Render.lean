import FlavorTable.Page.Draw
import FlavorTable.Page.Form

/-!
# Rendering the page

One run of the page: fill the form, draw the frame, read the table, and, when
the button was pressed, read the query and answer it.

A table that cannot be read ends the page with an error message. A query
field without a text is reported as an unexpected failure, and the query is
then not executed at all. A table field without a text is not provided for:
the run fails.

## Main results

* `render_of_fault` — a table that cannot be read stops the page.
-/

namespace FlavorTable.Page

/-- What the visitor did: whether the button is pressed and the comparison switched on. -/
structure Controls where
  pressed : Bool
  compare : Bool
  deriving DecidableEq, Repr

/-- A page as it was drawn. -/
structure Rendering where
  events : List Event
  /-- The form as it is after the run. -/
  form : Form Entry
  /-- Whether the page was ended early. -/
  stopped : Bool
  deriving DecidableEq, Repr

/-- The query that the fields ask for. -/
def Form.request (form : Form Entry) : Except Failure Request := do
  let intersect ← form.intersectFlavors.textFor .names
  let union ← form.unionFlavors.textFor .names
  let suffix ← form.makerSuffix.textFor .suffix
  return ⟨Text.names intersect, Text.strip suffix, Text.names union⟩

/-- What is drawn instead of an answer when a field has no text. -/
def unexpected (failure : Failure) : List Event :=
  atTop [.exception ("AttributeError: " ++ failure.message?.getD "")]

/-- The part after the button was pressed. -/
def pressedPart (engine : Engine) (form : Form Entry) (compare : Bool) : Run (List Event) :=
  match form.request with
  | .error failure => return unexpected failure
  | .ok request => do
      let plan ← engine.plan request.query
      if compare then
        let found ← engine.baseFlavorSeek (Request.nameList request.union)
        return answer request plan (some found)
      else
        return answer request plan none

/-- The part after the button when it was not pressed. -/
def waitingPart : List Event := atTop [.info "Set the query parameters and press Run."]

/-- What is drawn when the table cannot be read. -/
def refusal (fault : Csv.Fault) : List Event :=
  atTop [.error ("MalformedRowError while parsing rows: " ++ fault.message), .stop]

/-- One run of the page. -/
def render (initial : Form (Option Entry)) (controls : Controls) : Run Rendering := do
  let form := initial.fill
  let rowsText ← Run.ofExcept id (form.rowsText.textFor .lines)
  match Csv.parse rowsText with
  | .error fault => return ⟨frame ++ refusal fault, form, true⟩
  | .ok rows =>
      let engine ← Engine.ofRows rows
      let last ←
        if controls.pressed then pressedPart engine form controls.compare
        else pure waitingPart
      return ⟨frame ++ allRows rows ++ runButton ++ last, form, false⟩

/-- A table that cannot be read stops the page, without notes. -/
theorem render_of_fault {initial : Form (Option Entry)} {controls : Controls} {s : String}
    {fault : Csv.Fault} (hText : initial.fill.rowsText = .text s)
    (hParse : Csv.parse s = .error fault) :
    render initial controls = ⟨.ok ⟨frame ++ refusal fault, initial.fill, true⟩, []⟩ := by
  simp [render, hText, Entry.textFor, hParse]

end FlavorTable.Page
