import FlavorTable.Csv.Parse
import FlavorTable.Run

/-!
# Table files

A table file is read strictly as UTF-8, its newlines are unified, and the
text is parsed. Reading reports the number of rows, and reports nothing when
any of the steps fails.
-/

namespace FlavorTable

/-- What is found under a file's name. -/
inductive File where
  | missing
  | directory
  | bytes (content : List UInt8)

namespace File

/-- The text of a file, newlines unified. -/
def text : File → Except Failure String
  | .missing => .error .missingFile
  | .directory => .error .directory
  | .bytes content =>
      match Text.Utf8.decode content with
      | .ok s => .ok (.ofList (Text.unifyNewlines s.toList))
      | .error fault => .error (.encoding fault)

/-- The rows of a table file with the given name. -/
def load (file : File) (name : String) : Run (List Row) := do
  let text ← Run.ofExcept id file.text
  let rows ← Run.ofExcept .csv (Csv.parse text)
  Run.note (.loaded rows.length name)
  return rows

end File

end FlavorTable
