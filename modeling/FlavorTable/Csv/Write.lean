import FlavorTable.Row.Order

/-!
# Writing tables as text

A table is written in ascending order under its header, one line a row and
with no break after the last. A field is quoted when it holds a comma or a
double quote, whatever the delimiter between fields is, and a quote inside it
is then written twice.

## Main results

* `write_eq_of_perm` — the text does not depend on the order of the rows.
-/

namespace FlavorTable.Csv

/-- The delimiter that applies when none is given; it is the one that tables are read with. -/
def defaultDelimiter : String := ","

/-- Whether a field has to be quoted. -/
def needsQuotes (s : String) : Bool := s.toList.any fun c => c = ',' || c = '"'

/-- A field with its quotes, if it needs them. -/
def quoteField (s : String) : String :=
  if needsQuotes s then
    .ofList ('"' :: (s.toList.flatMap fun c => if c = '"' then ['"', '"'] else [c]) ++ ['"'])
  else s

def writeRow (delimiter : String) (row : Row) : String :=
  delimiter.intercalate (row.fields.map quoteField)

/-- The rows as text, in ascending order under the header. -/
def write (rows : List Row) (delimiter : String) : String :=
  "\n".intercalate ((Row.header :: Row.sorted rows).map (writeRow delimiter))

/-- The text does not depend on the order of the rows. -/
theorem write_eq_of_perm {a b : List Row} (h : a.Perm b) (delimiter : String) :
    write a delimiter = write b delimiter := by
  rw [write, write, Row.sorted_eq_of_perm h]

end FlavorTable.Csv
