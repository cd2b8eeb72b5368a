import FlavorTable.Csv.Split
import FlavorTable.Grid
import FlavorTable.Row.Check
import FlavorTable.Text.Utf8

/-!
# Failures

Everything that can go wrong, as a cause. The wording of each cause is in one
place, `Failure.message?`; a file that is not there or is no file is reported
without a text.
-/

namespace FlavorTable

/-- What was about to be done with a text field that turned out to be null. -/
inductive TextUse where
  /-- The table was to be cut into lines. -/
  | lines
  /-- A name list was to be cut at its commas. -/
  | names
  /-- A suffix was to be stripped. -/
  | suffix
  deriving DecidableEq, Repr

def TextUse.operation : TextUse → String
  | .lines => "splitlines"
  | .names => "split"
  | .suffix => "strip"

def Text.Utf8.Fault.message (fault : Text.Utf8.Fault) : String :=
  let place :=
    if fault.length = 1 then
      "byte 0x" ++ .ofList (Text.hexDigits 2 fault.lead.toNat) ++ " in position " ++
        toString fault.position
    else
      "bytes in position " ++ toString fault.position ++ "-" ++
        toString (fault.position + fault.length - 1)
  let defect :=
    match fault.defect with
    | .badStart => "invalid start byte"
    | .badContinuation => "invalid continuation byte"
    | .truncated => "unexpected end of data"
  "'utf-8' codec can't decode " ++ place ++ ": " ++ defect

inductive Failure where
  /-- A value was used for what it is unfit for. -/
  | misuse (misuse : Value.Misuse)
  /-- The data of a row is not a triple of texts. -/
  | badRow (defect : Row.Defect)
  /-- A number is too long for a message. -/
  | tooLong
  /-- A text is not a table. -/
  | csv (fault : Csv.Fault)
  /-- Rows cannot be shown as a grid. -/
  | grid (fault : Grid.Fault)
  /-- A file does not hold UTF-8. -/
  | encoding (fault : Text.Utf8.Fault)
  | missingFile
  | directory
  /-- A text field is null. -/
  | nullText (use : TextUse)
  /-- A step needs an engine and there is none. -/
  | noEngine
  /-- No rows are kept under this name. -/
  | noRegister (name : String)

namespace Failure

def ofRefusal : Row.Refusal → Failure
  | .misuse cause => .misuse cause
  | .defect cause => .badRow cause
  | .tooLong => .tooLong

def message? : Failure → Option String
  | .misuse cause => some cause.message
  | .badRow cause => some cause.message
  | .tooLong =>
      some ("Exceeds the limit (" ++ toString Number.digitLimit ++
        " digits) for integer string conversion; use sys.set_int_max_str_digits() to increase " ++
        "the limit")
  | .csv cause => some cause.message
  | .grid cause => some cause.message
  | .encoding cause => some cause.message
  | .missingFile | .directory => none
  | .nullText use => some ("'NoneType' object has no attribute '" ++ use.operation ++ "'")
  | .noEngine => some "no engine"
  | .noRegister name => some name

end Failure

end FlavorTable
