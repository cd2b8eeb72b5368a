import Mathlib.Data.List.Forall2
import FlavorTable.Proofs.Run.FirstFailure
import FlavorTable.Proofs.Value.Written
import FlavorTable.Row.Check

/-!
# Which loose data stands for rows

Loose data is described here by its shape, apart from how the check walks
through it.  A value stands for a row when it is a container of three texts,
where a record contains its field names, and `IsRefused` says of every other
value why it does not.  Where several things are wrong with a value it names
one: a bare text is refused as such, a wrong number of parts before any part
is looked at.  A number that is too long to be written comes before all this,
even where the value would have been a row.

The rows of a table stand in a list.  A text or a record may take the place of
a list only when it is empty, for the parts of both are bare texts.

## Main results

* `ofValue_eq_ok_iff`, `ofValue_eq_error_iff` — the check of one row.
* `listOfValue_eq_ok_iff`, `listOfValue_eq_error_iff` — the check of a table,
  which the first bad element decides.
* `exists_isTable_iff`, `ne_tooLong_of_isRefusedTable` — data without numbers
  that are too long is judged by its shape.
-/

namespace FlavorTable

namespace Value

/-- Neither a text nor a container. -/
def IsAtom : Value → Prop
  | .null | .bool _ | .int _ | .float _ => True
  | .text _ | .list _ | .record .. => False

/-- A list contains its items, and a record its field names. -/
inductive Contains : Value → List Value → Prop where
  | list (values : List Value) : Contains (.list values) values
  | record (names : FieldNames) (field : {name // name ∈ names.list} → Value) :
      Contains (.record names field) (names.list.map .text)

theorem IsAtom.items_eq {value : Value} (h : value.IsAtom) :
    value.items = .error (.noParts value) := by
  cases value with
  | null | bool _ | int _ | float _ => rfl
  | text _ | list _ | record _ _ => exact h.elim

/-- What a value contains can be written when the value can. -/
theorem Contains.exists_tupleLiteral {value : Value} {parts : List Value}
    (h : value.Contains parts) (hWritten : ¬value.HoldsTooLong) :
    ∃ shown, tupleLiteral parts = some shown := by
  rw [← Option.ne_none_iff_exists']
  intro hNone
  obtain ⟨part, hPart, hLong⟩ := tupleLiteral_eq_none_iff.mp hNone
  cases h with
  | list => exact hWritten (.item hPart hLong)
  | record names field =>
      obtain ⟨name, -, rfl⟩ := List.mem_map.mp hPart
      cases hLong

/-- Every value is a text, an atom or a container. -/
theorem shape_cases (value : Value) :
    (∃ s, value = .text s) ∨ value.IsAtom ∨ ∃ parts, value.Contains parts := by
  cases value with
  | text s => exact .inl ⟨s, rfl⟩
  | null | bool _ | int _ | float _ => exact .inr (.inl trivial)
  | list values => exact .inr (.inr ⟨values, .list values⟩)
  | record names field => exact .inr (.inr ⟨_, .record names field⟩)

end Value

namespace Row

variable {value : Value} {row : Row} {rows : List Row} {values : List Value} {refusal : Refusal}

/-! ## One row -/

/-- A container of three texts that can be written, and the row that they make. -/
structure IsTriple (value : Value) (row : Row) : Prop where
  contains : value.Contains (row.fields.map .text)
  written : ¬value.HoldsTooLong

/-- Why a value is no triple of texts. -/
inductive IsRefused : Value → Refusal → Prop where
  /-- A number anywhere in the value, also in a field of a record of three. -/
  | tooLong {value : Value} (h : value.HoldsTooLong) : IsRefused value .tooLong
  /-- A bare text, of any length. -/
  | bareText (s : String) : IsRefused (.text s) (.defect (.bareText s))
  | atom {value : Value} (hWritten : ¬value.HoldsTooLong) (h : value.IsAtom) :
      IsRefused value (.misuse (.noParts value))
  /-- A wrong number of parts, whatever these are. -/
  | count {value : Value} {parts : List Value} {shown : String} (hWritten : ¬value.HoldsTooLong)
      (h : value.Contains parts) (hShown : Value.tupleLiteral parts = some shown)
      (hCount : parts.length ≠ 3) : IsRefused value (.defect (.count shown parts.length))
  /-- Three parts, and not all of them texts. -/
  | notText {value : Value} {parts : List Value} {shown : String}
      (hWritten : ¬value.HoldsTooLong) (h : value.Contains parts)
      (hShown : Value.tupleLiteral parts = some shown) (hCount : parts.length = 3)
      (hText : ∃ part ∈ parts, part.text? = none) :
      IsRefused value (.defect (.notText shown))

theorem ofValue_of_written (hWritten : ¬value.HoldsTooLong) : ofValue value = ofWritten value := by
  rw [ofValue]
  cases hLiteral : value.literal with
  | none => exact absurd (Value.literal_eq_none_iff.mp hLiteral) hWritten
  | some shown => rfl

theorem ofValue_of_contains (hWritten : ¬value.HoldsTooLong) (h : value.Contains values) :
    ofValue value = ofValues values := by
  rw [ofValue_of_written hWritten]
  cases h <;> rfl

theorem IsTriple.ofValue_eq (h : IsTriple value row) : ofValue value = .ok row := by
  rw [ofValue_of_contains h.written h.contains]
  rfl

variable {shown : String}

theorem ofValues_of_count (hShown : Value.tupleLiteral values = some shown)
    (hCount : values.length ≠ 3) :
    ofValues values = .error (.defect (.count shown values.length)) := by
  rw [ofValues, hShown]
  dsimp only
  split
  · exact absurd rfl hCount
  · exact absurd rfl hCount
  · rfl

theorem ofValues_of_notText (hShown : Value.tupleLiteral values = some shown)
    (hCount : values.length = 3) (hText : ∃ part ∈ values, part.text? = none) :
    ofValues values = .error (.defect (.notText shown)) := by
  rw [ofValues, hShown]
  dsimp only
  split
  case h_1 =>
    obtain ⟨part, hPart, hNone⟩ := hText
    simp only [List.mem_cons, List.not_mem_nil, or_false] at hPart
    rcases hPart with rfl | rfl | rfl <;> cases hNone
  case h_2 => rfl
  case h_3 hOther =>
    obtain ⟨a, b, c, rfl⟩ := List.length_eq_three.mp hCount
    exact absurd rfl (hOther a b c)

/-- The check gives the reason that the shape of the value tells. -/
theorem IsRefused.ofValue_eq (h : IsRefused value refusal) : ofValue value = .error refusal := by
  cases h with
  | tooLong h => rw [ofValue, h.literal_eq]
  | bareText s => rfl
  | atom hWritten h =>
      rw [ofValue_of_written hWritten]
      cases value with
      | null | bool _ | int _ | float _ => rfl
      | text _ | list _ | record _ _ => exact h.elim
  | count hWritten h hShown hCount =>
      rw [ofValue_of_contains hWritten h, ofValues_of_count hShown hCount]
  | notText hWritten h hShown hCount hText =>
      rw [ofValue_of_contains hWritten h, ofValues_of_notText hShown hCount hText]

theorem exists_eq_text {part : Value} (h : part.text? ≠ none) : ∃ s, part = .text s := by
  cases part with
  | text s => exact ⟨s, rfl⟩
  | null | bool _ | int _ | float _ | list _ | record _ _ => exact absurd rfl h

theorem exists_eq_fields (hCount : values.length = 3)
    (hText : ∀ part ∈ values, part.text? ≠ none) : ∃ row : Row, values = row.fields.map .text := by
  obtain ⟨a, b, c, rfl⟩ := List.length_eq_three.mp hCount
  obtain ⟨maker, rfl⟩ := exists_eq_text (hText a (by simp))
  obtain ⟨flavor, rfl⟩ := exists_eq_text (hText b (by simp))
  obtain ⟨baseFlavor, rfl⟩ := exists_eq_text (hText c (by simp))
  exact ⟨⟨maker, flavor, baseFlavor⟩, rfl⟩

/-- A value is a triple of texts, or there is a reason why not. -/
theorem isTriple_or_isRefused (value : Value) :
    (∃ row, IsTriple value row) ∨ ∃ refusal, IsRefused value refusal := by
  by_cases hWritten : value.HoldsTooLong
  · exact .inr ⟨_, .tooLong hWritten⟩
  · rcases value.shape_cases with ⟨s, rfl⟩ | hAtom | ⟨parts, hParts⟩
    · exact .inr ⟨_, .bareText s⟩
    · exact .inr ⟨_, .atom hWritten hAtom⟩
    · obtain ⟨shown, hShown⟩ := hParts.exists_tupleLiteral hWritten
      by_cases hCount : parts.length = 3
      · by_cases hText : ∃ part ∈ parts, part.text? = none
        · exact .inr ⟨_, .notText hWritten hParts hShown hCount hText⟩
        · have hAll : ∀ part ∈ parts, part.text? ≠ none := by
            intro part hPart hNone
            exact hText ⟨part, hPart, hNone⟩
          obtain ⟨row, rfl⟩ := exists_eq_fields hCount hAll
          exact .inl ⟨row, hParts, hWritten⟩
      · exact .inr ⟨_, .count hWritten hParts hShown hCount⟩

/-- The check passes triples of texts and nothing else. -/
theorem ofValue_eq_ok_iff : ofValue value = .ok row ↔ IsTriple value row :=
  eq_ok_iff_of_complete IsTriple.ofValue_eq IsRefused.ofValue_eq (isTriple_or_isRefused value)

/-- The check refuses a value for the reason that its shape tells. -/
theorem ofValue_eq_error_iff : ofValue value = .error refusal ↔ IsRefused value refusal :=
  eq_error_iff_of_complete IsTriple.ofValue_eq IsRefused.ofValue_eq (isTriple_or_isRefused value)

/-! ## A table -/

/-- A list of triples of texts, and their rows in order.  An empty text and an
empty record are as good as an empty list. -/
inductive IsTable : Value → List Row → Prop where
  | list {values : List Value} {rows : List Row} (h : List.Forall₂ IsTriple values rows) :
      IsTable (.list values) rows
  | emptyText : IsTable (.text "") []
  | emptyRecord {names : FieldNames} {field : {name // name ∈ names.list} → Value}
      (h : names.list = []) : IsTable (.record names field) []

/-- Why a value is no table. -/
inductive IsRefusedTable : Value → Refusal → Prop where
  | atom {value : Value} (h : value.IsAtom) : IsRefusedTable value (.misuse (.noParts value))
  /-- The first bad element decides, whatever stands behind it. -/
  | list {before after : List Value} {bad : Value} {rows : List Row} {refusal : Refusal}
      (hBefore : List.Forall₂ IsTriple before rows) (hBad : IsRefused bad refusal) :
      IsRefusedTable (.list (before ++ bad :: after)) refusal
  /-- The first character of a text is a bare text. -/
  | text (c : Char) (rest : List Char) :
      IsRefusedTable (.text (.ofList (c :: rest))) (.defect (.bareText (.singleton c)))
  /-- So is the first name of a record. -/
  | record {names : FieldNames} {field : {name // name ∈ names.list} → Value} {name : String}
      {rest : List String} (h : names.list = name :: rest) :
      IsRefusedTable (.record names field) (.defect (.bareText name))

theorem map_ofValue_eq_iff :
    values.map ofValue = rows.map .ok ↔ List.Forall₂ IsTriple values rows := by
  rw [← List.forall₂_eq_eq_eq, List.forall₂_map_left_iff, List.forall₂_map_right_iff]
  simp only [ofValue_eq_ok_iff]

theorem mapM_ofValue_text (s : String) (rest : List Value) :
    (.text s :: rest).mapM ofValue = .error (.defect (.bareText s)) :=
  mapM_cons_of_error (IsRefused.bareText s).ofValue_eq rest

theorem IsTable.listOfValue_eq (h : IsTable value rows) : listOfValue value = .ok rows := by
  cases h with
  | list h => exact mapM_eq_ok_iff.mpr (map_ofValue_eq_iff.mpr h)
  | emptyText => rfl
  | emptyRecord h => rw [listOfValue, Value.items, h]; rfl

theorem IsRefusedTable.listOfValue_eq (h : IsRefusedTable value refusal) :
    listOfValue value = .error refusal := by
  cases h with
  | atom h => rw [listOfValue, h.items_eq]
  | list hBefore hBad =>
      exact mapM_eq_error_iff.mpr
        ⟨_, _, _, rfl, ⟨_, map_ofValue_eq_iff.mpr hBefore⟩, ofValue_eq_error_iff.mpr hBad⟩
  | text c rest =>
      rw [listOfValue, Value.items, String.toList_ofList]
      exact mapM_ofValue_text _ _
  | record h =>
      rw [listOfValue, Value.items, h]
      exact mapM_ofValue_text _ _

/-- A value is a table, or there is a reason why not. -/
theorem isTable_or_isRefusedTable (value : Value) :
    (∃ rows, IsTable value rows) ∨ ∃ refusal, IsRefusedTable value refusal := by
  cases value with
  | null | bool _ | int _ | float _ => exact .inr ⟨_, .atom trivial⟩
  | text s =>
      cases hChars : s.toList with
      | nil =>
          rw [String.toList_eq_nil_iff.mp hChars]
          exact .inl ⟨[], .emptyText⟩
      | cons c rest =>
          rw [← String.ofList_toList (s := s), hChars]
          exact .inr ⟨_, .text c rest⟩
  | list values =>
      cases hRead : values.mapM ofValue with
      | ok rows => exact .inl ⟨rows, .list (map_ofValue_eq_iff.mp (mapM_eq_ok_iff.mp hRead))⟩
      | error refusal =>
          obtain ⟨before, bad, after, rfl, ⟨rows, hBefore⟩, hBad⟩ := mapM_eq_error_iff.mp hRead
          exact .inr ⟨refusal,
            .list (map_ofValue_eq_iff.mp hBefore) (ofValue_eq_error_iff.mp hBad)⟩
  | record names field =>
      cases hNames : names.list with
      | nil => exact .inl ⟨[], .emptyRecord hNames⟩
      | cons name rest => exact .inr ⟨_, .record hNames⟩

theorem listOfValue_eq_ok_iff : listOfValue value = .ok rows ↔ IsTable value rows :=
  eq_ok_iff_of_complete IsTable.listOfValue_eq IsRefusedTable.listOfValue_eq
    (isTable_or_isRefusedTable value)

theorem listOfValue_eq_error_iff :
    listOfValue value = .error refusal ↔ IsRefusedTable value refusal :=
  eq_error_iff_of_complete IsTable.listOfValue_eq IsRefusedTable.listOfValue_eq
    (isTable_or_isRefusedTable value)

/-! ## The shape of a table -/

/-- A list of containers of three texts, or something as good as an empty list. -/
inductive HasTableShape : Value → Prop where
  | list {values : List Value}
      (h : ∀ value ∈ values, ∃ row : Row, value.Contains (row.fields.map .text)) :
      HasTableShape (.list values)
  | emptyText : HasTableShape (.text "")
  | emptyRecord {names : FieldNames} {field : {name // name ∈ names.list} → Value}
      (h : names.list = []) : HasTableShape (.record names field)

theorem exists_forall₂_isTriple_iff :
    (∃ rows, List.Forall₂ IsTriple values rows) ↔ ∀ value ∈ values, ∃ row, IsTriple value row := by
  simp only [← map_ofValue_eq_iff, ← ofValue_eq_ok_iff]
  exact exists_map_eq_ok_iff

/-- Data without numbers that are too long is a table when it has the shape of one. -/
theorem exists_isTable_iff (hWritten : ¬value.HoldsTooLong) :
    (∃ rows, IsTable value rows) ↔ HasTableShape value := by
  constructor
  · rintro ⟨rows, hTable⟩
    cases hTable with
    | list h =>
        refine .list fun item hItem => ?_
        obtain ⟨row, hRow⟩ := exists_forall₂_isTriple_iff.mp ⟨rows, h⟩ item hItem
        exact ⟨row, hRow.contains⟩
    | emptyText => exact .emptyText
    | emptyRecord h => exact .emptyRecord h
  · intro hShape
    cases hShape with
    | list h =>
        refine (exists_forall₂_isTriple_iff.mpr fun item hItem => ?_).imp fun _ => .list
        obtain ⟨row, hRow⟩ := h item hItem
        exact ⟨row, hRow, fun hLong => hWritten (.item hItem hLong)⟩
    | emptyText => exact ⟨[], .emptyText⟩
    | emptyRecord h => exact ⟨[], .emptyRecord h⟩

theorem ne_tooLong_of_isRefusedTable (hWritten : ¬value.HoldsTooLong)
    (h : IsRefusedTable value refusal) : refusal ≠ .tooLong := by
  rintro rfl
  cases h with
  | list hBefore hBad =>
      cases hBad with
      | tooLong hLong =>
          exact hWritten (.item (List.mem_append_right _ List.mem_cons_self) hLong)

end Row

end FlavorTable
