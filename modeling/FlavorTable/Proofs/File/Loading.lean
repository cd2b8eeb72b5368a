import FlavorTable.Proofs.Engine.Building
import FlavorTable.Proofs.Text.Lines
import FlavorTable.Proofs.Text.Utf8

/-!
# Loading a table file

A file is decoded, its newlines are unified, and then the text is parsed.  A
text that was encoded is decoded as itself, and unifying newlines changes
neither the lines of a text nor their numbers.  So the file of a text is loaded
as the text is parsed: with the same rows, or with the same fault on the same
line.

Loading logs one line, and building an engine over the rows another; a failure
logs none, wherever it occurs.  The rows were made by the parser, so checking
them as loose data would refuse none.

## Main results

* `parse_unifyNewlines` — a text is parsed as it is with its newlines unified.
* `load_eq`, `ofFile_eq` — loading and building in terms of what the file holds.
* `loading_agrees_with_parsing` — files, texts, and what is logged.
-/

namespace FlavorTable

namespace Run

variable {α : Type}

/-- The lines that a run logs, each with its text if that can be composed. -/
def log (run : Run α) : List (Level × Option String) :=
  run.trace.map fun note => (note.level, note.text)

/-- The run logs these lines when it succeeds, and none when it fails. -/
def Logs (run : Run α) (lines : α → List (Level × Option String)) : Prop :=
  match run.outcome with
  | .ok a => run.log = lines a
  | .error _ => run.log = []

end Run

theorem Csv.parse_unifyNewlines (s : String) :
    parse (.ofList (Text.unifyNewlines s.toList)) = parse s := by
  have hLines : contentLines (.ofList (Text.unifyNewlines s.toList)) = contentLines s := by
    rw [contentLines, contentLines, String.toList_ofList, Text.lines_unifyNewlines]
  rw [parse, parse, hLines]

namespace File

/-- The rows that a file holds, or why it holds none. -/
def rows (file : File) : Except Failure (List Row) :=
  file.text.bind fun s => (Csv.parse s).mapError .csv

/-- The file of a text holds what the text is parsed to. -/
theorem rows_encode (s : String) :
    (bytes (Text.Utf8.encode s)).rows = (Csv.parse s).mapError .csv := by
  have hText : (bytes (Text.Utf8.encode s)).text =
      .ok (.ofList (Text.unifyNewlines s.toList)) := by
    rw [text, Text.Utf8.decode_encode]
  rw [rows, hText, ← Csv.parse_unifyNewlines s]
  rfl

variable (file : File) (name : String)

theorem load_eq :
    file.load name =
      match file.rows with
      | .ok found => ⟨.ok found, [.loaded found.length name]⟩
      | .error failure => ⟨.error failure, []⟩ := by
  rw [load, rows]
  cases file.text with
  | error failure => rfl
  | ok s =>
      cases hParse : Csv.parse s with
      | error fault =>
          simp only [Run.ofExcept_ok, Run.bind_ok, Except.bind, hParse]
          rfl
      | ok found =>
          simp only [Run.ofExcept_ok, Run.bind_ok, Except.bind, hParse]
          rfl

theorem ofFile_eq :
    Engine.ofFile file name =
      match file.rows with
      | .ok found =>
          ⟨.ok (Engine.holding found), [.loaded found.length name, Engine.buildNote found]⟩
      | .error failure => ⟨.error failure, []⟩ := by
  rw [Engine.ofFile, load_eq]
  cases file.rows <;> rfl

/-- Checking the rows of a file as loose data makes no difference. -/
theorem ofFile_eq_ofValue :
    Engine.ofFile file name = (do
      let found ← file.load name
      Engine.ofValue (.ofRows found)) := by
  simp only [Engine.ofValue_ofRows]
  rfl

/-- What is wrong with a file is never that its rows are no triples of texts. -/
theorem rows_ne_badRow (defect : Row.Defect) : file.rows ≠ .error (.badRow defect) := by
  intro h
  cases hText : file.text with
  | ok s =>
      rw [rows, hText, Except.bind] at h
      cases hParse : Csv.parse s <;> rw [hParse] at h <;> cases h
  | error failure =>
      rw [rows, hText, Except.bind] at h
      cases h
      cases file with
      | missing | directory => cases hText
      | bytes content =>
          rw [text] at hText
          cases hDecode : Text.Utf8.decode content <;> rw [hDecode] at hText <;> cases hText

theorem logs_load :
    (file.load name).Logs fun found =>
      [(.info, some ("Loaded " ++ toString found.length ++ " rows from " ++ name))] := by
  rw [Run.Logs, load_eq]
  cases file.rows <;> rfl

theorem logs_ofFile :
    (Engine.ofFile file name).Logs fun engine =>
      [(.info, some ("Loaded " ++ toString engine.rows.length ++ " rows from " ++ name)),
        (.debug, (Engine.buildNote engine.rows).text)] := by
  rw [Run.Logs, ofFile_eq]
  cases file.rows <;> rfl

/-- **A file is loaded as its text is parsed.** The file of a text gives the rows
of the text or the fault of the text, and an engine built over the file has the
same outcome.  Of any file, the number of rows is logged when they are loaded,
and then the indexes when they are built; a failure logs nothing.  An engine
over a file is an engine over its checked rows, and the check refuses none. -/
theorem loading_agrees_with_parsing :
    (∀ s name : String,
      ((bytes (Text.Utf8.encode s)).load name).outcome = (Csv.parse s).mapError .csv ∧
      (Engine.ofFile (bytes (Text.Utf8.encode s)) name).outcome =
        ((Csv.parse s).mapError .csv).map Engine.holding) ∧
    ∀ (file : File) (name : String),
      ((file.load name).Logs fun found =>
        [(.info, some ("Loaded " ++ toString found.length ++ " rows from " ++ name))]) ∧
      ((Engine.ofFile file name).Logs fun engine =>
        [(.info, some ("Loaded " ++ toString engine.rows.length ++ " rows from " ++ name)),
          (.debug, (Engine.buildNote engine.rows).text)]) ∧
      Engine.ofFile file name = (do
        let found ← file.load name
        Engine.ofValue (.ofRows found)) ∧
      ∀ defect, (Engine.ofFile file name).outcome ≠ .error (.badRow defect) := by
  constructor
  · intro s name
    rw [load_eq, ofFile_eq, rows_encode]
    cases Csv.parse s with
    | ok found => exact ⟨rfl, rfl⟩
    | error fault => exact ⟨rfl, rfl⟩
  · intro file name
    refine ⟨logs_load file name, logs_ofFile file name, ofFile_eq_ofValue file name, ?_⟩
    intro defect h
    rw [ofFile_eq] at h
    cases hRows : file.rows with
    | ok found =>
        rw [hRows] at h
        cases h
    | error failure =>
        rw [hRows] at h
        cases h
        exact rows_ne_badRow file defect hRows

end File

end FlavorTable
