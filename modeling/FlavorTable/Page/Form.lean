import FlavorTable.Csv.Write
import FlavorTable.Failure
import FlavorTable.Row.Sample

/-!
# The form of the page

The page has four text fields: the table, the two lists of flavor names and
the maker suffix. A field that was never filled gets its default; one that
was filled keeps what it holds, also when that is no text at all.

## Main results

* `fill_complete` — filling a form that is complete changes nothing.
-/

namespace FlavorTable.Page

/-- What a field holds. -/
inductive Entry where
  | null
  | text (s : String)
  deriving DecidableEq, Repr

/-- The text of a field that is about to be used. -/
def Entry.textFor (entry : Entry) (use : TextUse) : Except Failure String :=
  match entry with
  | .null => .error (.nullText use)
  | .text s => .ok s

/-- The four fields. -/
structure Form (α : Type) where
  rowsText : α
  intersectFlavors : α
  makerSuffix : α
  unionFlavors : α
  deriving DecidableEq, Repr

namespace Form

/-- The defaults: the sample table, and a query that it has answers to. -/
def default : Form String where
  rowsText := Csv.write Row.sample Csv.defaultDelimiter
  intersectFlavors := "Mint, Coffee, Vanilla"
  makerSuffix := "Creamery"
  unionFlavors := "Vanilla"

/-- The form with the defaults in the fields that were never filled. -/
def fill (form : Form (Option Entry)) : Form Entry where
  rowsText := form.rowsText.getD (.text default.rowsText)
  intersectFlavors := form.intersectFlavors.getD (.text default.intersectFlavors)
  makerSuffix := form.makerSuffix.getD (.text default.makerSuffix)
  unionFlavors := form.unionFlavors.getD (.text default.unionFlavors)

/-- A form with something in every field. -/
def complete (form : Form Entry) : Form (Option Entry) where
  rowsText := some form.rowsText
  intersectFlavors := some form.intersectFlavors
  makerSuffix := some form.makerSuffix
  unionFlavors := some form.unionFlavors

/-- Filling a complete form changes nothing. -/
@[simp] theorem fill_complete (form : Form Entry) : form.complete.fill = form := rfl

end Form

end FlavorTable.Page
