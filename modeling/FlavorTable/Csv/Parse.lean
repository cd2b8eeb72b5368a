import FlavorTable.Csv.Split
import FlavorTable.Row.Basic
import FlavorTable.Text.Lines

/-!
# Tables in text form

A table is written as a header line followed by one line a row. Blank lines
count for the numbering of lines and for nothing else. The first line that is
not blank is taken for the header, whatever it says; every later one must
have three fields. Reading stops at the first line that does not.

## Main results

* `parse_eq_missingHeader_iff` — the header is missing when all lines are
  blank, and only then.
-/

namespace FlavorTable.Csv

/-- The lines of a text that are not blank, each with its number from 1. -/
def contentLines (text : String) : List (List Char × Nat) :=
  ((Text.lines text.toList).zipIdx 1).filter fun numbered => !Text.isBlankText numbered.1

def readRow (line : String) (number : Nat) : Except Fault Row := do
  let fields ← split line
  match Row.ofFields? fields with
  | some row => return row
  | none => throw (.fieldCount number line fields.length)

/-- The rows of a text, in the order of its lines. -/
def parse (text : String) : Except Fault (List Row) :=
  match contentLines text with
  | [] => .error .missingHeader
  | _ :: body => body.mapM fun numbered => readRow (.ofList numbered.1) numbered.2

theorem readRow_ne_missingHeader (line : String) (number : Nat) :
    readRow line number ≠ .error .missingHeader := by
  unfold readRow split
  cases scan false line.toList with
  | none => simp [bind, Except.bind]
  | some fields =>
      cases hRow : Row.ofFields? (fields.map String.ofList) <;>
        simp [bind, Except.bind, hRow, pure, Except.pure, throw, throwThe, MonadExceptOf.throw]

/-- A fault of several readings is the fault of one of them. -/
theorem exists_of_mapM_eq_error {α β : Type} {read : α → Except Fault β} {parts : List α}
    {fault : Fault} (h : parts.mapM read = .error fault) :
    ∃ part ∈ parts, read part = .error fault := by
  induction parts with
  | nil => simp [pure, Except.pure] at h
  | cons part rest ih =>
      rw [List.mapM_cons] at h
      cases hRead : read part with
      | error first =>
          rw [hRead] at h
          have hEq : first = fault := by simpa [bind, Except.bind] using h
          exact ⟨part, List.mem_cons_self, hEq ▸ hRead⟩
      | ok row =>
          cases hRest : rest.mapM read with
          | error later =>
              rw [hRead, hRest] at h
              have hEq : later = fault := by simpa [bind, Except.bind] using h
              obtain ⟨found, hMem, hFound⟩ := ih (hEq ▸ hRest)
              exact ⟨found, List.mem_cons_of_mem _ hMem, hFound⟩
          | ok rows => simp [hRead, hRest, bind, Except.bind, pure, Except.pure] at h

/-- The header is missing when every line is blank, and only then. -/
theorem parse_eq_missingHeader_iff {text : String} :
    parse text = .error .missingHeader ↔ contentLines text = [] := by
  unfold parse
  cases contentLines text with
  | nil => simp
  | cons header body =>
      simp only [reduceCtorEq, iff_false]
      intro h
      obtain ⟨part, -, hPart⟩ := exists_of_mapM_eq_error h
      exact readRow_ne_missingHeader _ _ hPart

end FlavorTable.Csv
