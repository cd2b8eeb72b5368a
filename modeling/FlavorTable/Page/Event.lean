import FlavorTable.Record

/-!
# Page events

A page is drawn by a sequence of calls. Each call is made while some
containers are open, and an `Event` records the call together with them, the
outermost first.
-/

namespace FlavorTable.Page

/-- A part of the page that holds other parts. -/
inductive Container where
  /-- A column, counted from the left and from zero. -/
  | column (position : Nat)
  | tab (title : String)
  /-- The fold-out part with a label. -/
  | expander (label : String)
  deriving DecidableEq, Repr

/-- A call that draws something, asks for something or ends the page. -/
inductive Call where
  /-- The title, icon and layout of the window. -/
  | configure (title icon layout : String)
  | title (text : String)
  | write (text : String)
  | columns (weights : List Nat) (gap : String)
  | subheader (text : String)
  | textArea (label : String) (height : Nat) (help key : String)
  | textInput (label key : String)
  | checkbox (label : String) (value : Bool)
  | button (label kind : String)
  /-- A paragraph with emphasis. -/
  | markdown (text : String)
  /-- A remark in small print. -/
  | caption (text : String)
  | table (records : List Record)
  | info (text : String)
  | success (text : String)
  | error (text : String)
  /-- A failure that was not expected. -/
  | exception (text : String)
  | tabs (titles : List String)
  /-- A part that can be folded away. -/
  | expander (label : String)
  /-- A text to be saved as a file. -/
  | downloadButton (label data fileName mime : String)
  /-- A text in fixed-width letters. -/
  | code (text language : String)
  | stop
  deriving DecidableEq, Repr

/-- A call and the containers that are open around it. -/
structure Event where
  call : Call
  within : List Container
  deriving DecidableEq, Repr

/-- Calls made outside of all containers. -/
def atTop (calls : List Call) : List Event := calls.map fun call => ⟨call, []⟩

/-- Events that happen while one more container is open around them. -/
def inside (container : Container) (events : List Event) : List Event :=
  events.map fun event => { event with within := container :: event.within }

end FlavorTable.Page
