import FlavorTable.Number.Literal
import FlavorTable.Text.Literal

/-!
# Loosely typed values

Rows, lookup keys and suffixes may come from outside as data of any shape.
`Value` is that data, `Value.items` walks through it, and `Value.literal`
writes it into a message, unless a number in it is too long to be written.

A record is given by the names of its fields, none of them twice, and a value
for each name. Its fields stay in the order in which they were written. Text is
walked character by character and a record by its field names, both as texts;
the other atoms cannot be walked.

## Main results

* `items_list` — a list is walked item by item.
-/

namespace FlavorTable

/-- The names of a record's fields, in order. No two of them are the same. -/
structure FieldNames where
  list : List String
  distinct : list.Nodup

inductive Value where
  | null
  | bool (b : Bool)
  | int (n : Int)
  | float (x : Float)
  | text (s : String)
  | list (items : List Value)
  | record (names : FieldNames) (field : {name // name ∈ names.list} → Value)

namespace Value

/-- What a value may turn out to be unfit for. -/
inductive Misuse where
  /-- The value was to be walked through and has no parts. -/
  | noParts (value : Value)
  /-- The value was to be a lookup key and is a container. -/
  | notKey (value : Value)

/-- The name of a value's shape in messages. -/
def shape : Value → String
  | .null => "NoneType"
  | .bool _ => "bool"
  | .int _ => "int"
  | .float _ => "float"
  | .text _ => "str"
  | .list _ => "list"
  | .record .. => "dict"

def Misuse.message : Misuse → String
  | .noParts value => "'" ++ value.shape ++ "' object is not iterable"
  | .notKey value => "unhashable type: '" ++ value.shape ++ "'"

/-- The parts of a value, in order. -/
def items : Value → Except Misuse (List Value)
  | .text s => .ok (s.toList.map fun c => .text (.singleton c))
  | .list items => .ok items
  | .record names _ => .ok (names.list.map .text)
  | value => .error (.noParts value)

@[simp] theorem items_list (values : List Value) : (Value.list values).items = .ok values := rfl

/-- The text that a value is, if it is one. -/
def text? : Value → Option String
  | .text s => some s
  | _ => none

/-! ## Literals -/

mutual

/-- A value as a literal on one line, if all its numbers can be written. -/
def literal : Value → Option String
  | .null => some "None"
  | .bool true => some "True"
  | .bool false => some "False"
  | .int n => Number.integer n
  | .float x => some (Number.literal x)
  | .text s => some (Text.quoted s)
  | .list items => (literals items).map Text.bracketed
  | .record names field =>
      (names.list.attach.mapM fun name =>
        (field name).literal.map fun shown => Text.quoted name ++ ": " ++ shown).map fun shown =>
          "\x7b" ++ ", ".intercalate shown ++ "\x7d"

def literals : List Value → Option (List String)
  | [] => some []
  | value :: rest => do
      let shown ← value.literal
      let others ← literals rest
      return shown :: others

end

/-- Several values as one tuple literal; a tuple of one value keeps its comma. -/
def tupleLiteral (values : List Value) : Option String :=
  (literals values).map fun shown =>
    match shown with
    | [only] => "(" ++ only ++ ",)"
    | shown => "(" ++ ", ".intercalate shown ++ ")"

end Value

end FlavorTable
