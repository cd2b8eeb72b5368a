import FlavorTable.Text.Literal
import FlavorTable.Text.Pieces

/-!
# Fields of a line

A line is cut into fields at its commas. Inside double quotes a comma is an
ordinary character and two quotes in a row stand for one; quotes may open and
close anywhere in a field, and are not part of it. A line whose last quote is
never closed has no fields.

The reader is one pass with one bit of state: whether it stands inside
quotes.

## Main results

* `scan_plain` — an ordinary character belongs to the current field.
* `ne_nil_of_scan` — a line that can be read has at least one field.
-/

namespace FlavorTable.Csv

/-- Why a text is not a table. -/
inductive Fault where
  /-- Every line is blank. -/
  | missingHeader
  /-- The line leaves a quote open. -/
  | unclosedQuote (line : String)
  /-- The line with this number has `count` fields. -/
  | fieldCount (number : Nat) (line : String) (count : Nat)
  deriving DecidableEq, Repr

def Fault.message : Fault → String
  | .missingHeader => "Missing header line (Maker,Flavor,BaseFlavor)"
  | .unclosedQuote line => "Unclosed quote in line " ++ Text.quoted line
  | .fieldCount number line count =>
      "Line " ++ toString number ++ ": " ++ Text.quoted line ++ " has " ++ toString count ++
        " fields, expected 3"

/-- The fields of the rest of a line, read from inside or outside quotes. -/
def scan : Bool → List Char → Option (List (List Char))
  | false, [] => some [[]]
  | true, [] => none
  | false, c :: rest =>
      if c = '"' then scan true rest
      else if c = ',' then (scan false rest).map ([] :: ·)
      else (scan false rest).map (Text.extendFirst c)
  | true, '"' :: '"' :: rest => (scan true rest).map (Text.extendFirst '"')
  | true, c :: rest =>
      if c = '"' then scan false rest else (scan true rest).map (Text.extendFirst c)

/-- Outside quotes, a character that is neither a quote nor a comma is kept. -/
theorem scan_plain {c : Char} (rest : List Char) (hQuote : c ≠ '"') (hComma : c ≠ ',') :
    scan false (c :: rest) = (scan false rest).map (Text.extendFirst c) := by
  simp [scan, hQuote, hComma]

/-- A line that can be read has at least one field. -/
theorem ne_nil_of_scan {inside : Bool} {line : List Char} {fields : List (List Char)}
    (h : scan inside line = some fields) : fields ≠ [] := by
  fun_induction scan inside line generalizing fields with
  | case1 => simp at h; simp [← h]
  | case2 => simp at h
  | case3 => simp_all
  | case7 => simp_all
  | case4 | case5 | case6 | case8 =>
      obtain ⟨rest, -, rfl⟩ := Option.map_eq_some_iff.mp h
      simp [Text.extendFirst_ne_nil]

def split (line : String) : Except Fault (List String) :=
  match scan false line.toList with
  | some fields => .ok (fields.map .ofList)
  | none => .error (.unclosedQuote line)

end FlavorTable.Csv
