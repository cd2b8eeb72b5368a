import FlavorTable.Row.Basic
import FlavorTable.Value.Basic

/-!
# Rows from loose data

A row given as loose data is a triple of texts: a list of three, or a record
of three field names. A bare text is refused before its length is looked at,
then a wrong number of values, and only then a value that is not a text. The
message shows the values as a tuple.

Each check composes its message first, whether it will be needed or not. So
data in which a number is too long to be written is refused for that, before
anything else is found wrong with it and also when nothing is.

## Main results

* `ofValue_fields` — a list of three texts is the row of these texts.
-/

namespace FlavorTable.Row

/-- What is wrong with the data given for a row. -/
inductive Defect where
  /-- A bare text stands in place of a triple. -/
  | bareText (s : String)
  /-- There are not three values. They are shown as a tuple. -/
  | count (shown : String) (found : Nat)
  /-- One of the three values is not a text. -/
  | notText (shown : String)

def Defect.message : Defect → String
  | .bareText s =>
      "Row " ++ Text.quoted s ++ " must be a (Maker, Flavor, BaseFlavor) triple, not a string"
  | .count shown found =>
      "Row " ++ shown ++ " has " ++ toString found ++
        " values, expected 3 (Maker, Flavor, BaseFlavor)"
  | .notText shown => "Row " ++ shown ++ " must hold strings only"

/-- Why loose data is no row. -/
inductive Refusal where
  /-- The data has no parts. -/
  | misuse (misuse : Value.Misuse)
  /-- The parts are not a triple of texts. -/
  | defect (defect : Defect)
  /-- A number in the data is too long for a message. -/
  | tooLong

/-- The row of three values, which must all be texts. -/
def ofValues (values : List Value) : Except Refusal Row :=
  match Value.tupleLiteral values with
  | none => .error .tooLong
  | some shown =>
      match values with
      | [.text maker, .text flavor, .text baseFlavor] => .ok ⟨maker, flavor, baseFlavor⟩
      | [_, _, _] => .error (.defect (.notText shown))
      | values => .error (.defect (.count shown values.length))

/-- The row of a value that can be written. -/
def ofWritten : Value → Except Refusal Row
  | .text s => .error (.defect (.bareText s))
  | value =>
      match value.items with
      | .ok values => ofValues values
      | .error misuse => .error (.misuse misuse)

/-- The row that a value stands for. -/
def ofValue (value : Value) : Except Refusal Row :=
  match value.literal with
  | none => .error .tooLong
  | some _ => ofWritten value

/-- A list of three texts is a row. -/
@[simp] theorem ofValue_fields (row : Row) :
    ofValue (.list (row.fields.map .text)) = .ok row := rfl

/-- The rows that a value stands for; the first refusal counts. -/
def listOfValue (value : Value) : Except Refusal (List Row) :=
  match value.items with
  | .ok values => values.mapM ofValue
  | .error misuse => .error (.misuse misuse)

end FlavorTable.Row
