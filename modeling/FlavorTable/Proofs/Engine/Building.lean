import FlavorTable.Proofs.Lookup.Seek
import FlavorTable.Proofs.Row.Checking

/-!
# Engines over loose data

An engine is built over loose data only after all of it was checked.  So there
are two outcomes: an engine that holds the rows of the data, one for each
element and in order, with one note on its indexes; or the refusal of the
first bad element, with nothing built and nothing noted.  Data that is made of
rows passes the check and comes out as these rows.

A number too long for a message is one of the things that make an element bad.
Data that was read from a text holds none, and then the shape alone decides.

## Main results

* `ofValue_ofRows` — rows, given as loose data, pass the check.
* `ofValue_decides` — when an engine is built over loose data, and why it is
  not.
-/

namespace FlavorTable

/-- Rows as loose data: a list of lists of texts. -/
def Value.ofRows (rows : List Row) : Value :=
  .list (rows.map fun row => .list (row.fields.map .text))

theorem Row.isTable_ofRows (rows : List Row) : IsTable (Value.ofRows rows) rows := by
  refine .list ?_
  rw [List.forall₂_map_left_iff, List.forall₂_same]
  intro row _
  refine ⟨.list _, fun hLong => ?_⟩
  have hNone : (Value.list (row.fields.map .text)).literal = none := hLong.literal_eq
  cases hNone

namespace Engine

/-- The note that building an engine leaves. -/
def buildNote (rows : List Row) : Note :=
  .indexesBuilt rows.length (Indexes.ofRows rows).primary.size (Indexes.ofRows rows).byFlavor.size
    (Indexes.ofRows rows).byBaseFlavor.size

theorem ofRows_eq (rows : List Row) : ofRows rows = ⟨.ok (holding rows), [buildNote rows]⟩ := rfl

variable {value : Value} {rows : List Row} {refusal : Row.Refusal}

theorem ofValue_of_isTable (h : Row.IsTable value rows) :
    ofValue value = ⟨.ok (holding rows), [buildNote rows]⟩ := by
  rw [ofValue, h.listOfValue_eq]
  rfl

theorem ofValue_of_isRefusedTable (h : Row.IsRefusedTable value refusal) :
    ofValue value = ⟨.error (.ofRefusal refusal), []⟩ := by
  rw [ofValue, h.listOfValue_eq]
  rfl

/-- Rows pass the check. -/
theorem ofValue_ofRows (rows : List Row) : ofValue (.ofRows rows) = ofRows rows :=
  ofValue_of_isTable (Row.isTable_ofRows rows)

theorem ofValue_eq_ok_iff {engine : Engine} {notes : List Note} :
    ofValue value = ⟨.ok engine, notes⟩ ↔
      ∃ rows, Row.IsTable value rows ∧ engine = ⟨rows, Indexes.ofRows rows⟩ ∧
        notes = [buildNote rows] := by
  constructor
  · intro h
    rcases Row.isTable_or_isRefusedTable value with ⟨rows, hTable⟩ | ⟨refusal, hRefused⟩
    · rw [ofValue_of_isTable hTable] at h
      cases h
      exact ⟨rows, hTable, rfl, rfl⟩
    · rw [ofValue_of_isRefusedTable hRefused] at h
      cases h
  · rintro ⟨rows, hTable, rfl, rfl⟩
    exact ofValue_of_isTable hTable

theorem ofValue_eq_error_iff {failure : Failure} {notes : List Note} :
    ofValue value = ⟨.error failure, notes⟩ ↔
      ∃ refusal, Row.IsRefusedTable value refusal ∧ failure = .ofRefusal refusal ∧
        notes = [] := by
  constructor
  · intro h
    rcases Row.isTable_or_isRefusedTable value with ⟨rows, hTable⟩ | ⟨refusal, hRefused⟩
    · rw [ofValue_of_isTable hTable] at h
      cases h
    · rw [ofValue_of_isRefusedTable hRefused] at h
      cases h
      exact ⟨refusal, hRefused, rfl, rfl⟩
  · rintro ⟨refusal, hRefused, rfl, rfl⟩
    exact ofValue_of_isRefusedTable hRefused

theorem exists_ofValue_eq_ok_iff :
    (∃ engine notes, ofValue value = ⟨.ok engine, notes⟩) ↔ ∃ rows, Row.IsTable value rows := by
  constructor
  · rintro ⟨engine, notes, h⟩
    obtain ⟨rows, hTable, -, -⟩ := ofValue_eq_ok_iff.mp h
    exact ⟨rows, hTable⟩
  · rintro ⟨rows, hTable⟩
    exact ⟨_, _, ofValue_of_isTable hTable⟩

/-- **An engine is built over a table and over nothing else.** It holds the rows
of the table, and one note is left.  Data that is no table is refused: by its
first bad element, for the first thing that is wrong with that element, and
without a note.  Data that was read from a text is a table just when it has the
shape of one, and is never refused for a number that is too long. -/
theorem ofValue_decides :
    (∀ value : Value,
      (∀ engine notes, ofValue value = ⟨.ok engine, notes⟩ ↔
        ∃ rows, Row.IsTable value rows ∧ engine = ⟨rows, Indexes.ofRows rows⟩ ∧
          notes = [buildNote rows]) ∧
      ∀ failure notes, ofValue value = ⟨.error failure, notes⟩ ↔
        ∃ refusal, Row.IsRefusedTable value refusal ∧ failure = .ofRefusal refusal ∧
          notes = []) ∧
    ∀ data : JsonValue,
      ((∃ engine notes, ofValue data.value = ⟨.ok engine, notes⟩) ↔
        Row.HasTableShape data.value) ∧
      ∀ refusal, Row.IsRefusedTable data.value refusal → refusal ≠ .tooLong := by
  refine ⟨fun value => ⟨fun _ _ => ofValue_eq_ok_iff, fun _ _ => ofValue_eq_error_iff⟩, ?_⟩
  intro data
  refine ⟨?_, fun refusal => Row.ne_tooLong_of_isRefusedTable data.written⟩
  rw [exists_ofValue_eq_ok_iff]
  exact Row.exists_isTable_iff data.written

/-- A wrong count is reported before the types of the values, and before the text that stands
behind the row. -/
example :
    ofValue (.list [.list [.null, .null], .text "abc"]) =
      ⟨.error (.badRow (.count "(None, None)" 2)), []⟩ :=
  rfl

end Engine

end FlavorTable
