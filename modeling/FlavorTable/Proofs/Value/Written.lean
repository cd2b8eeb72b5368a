import FlavorTable.Value.Basic

/-!
# Data that can be written

A literal shows a value with all that it holds, so one number that is too long
keeps the whole value from being written, however deep it stands.  Nothing else
does.

The limit on digits applies where numbers are read as well.  Data that was read
from a text is therefore free of such numbers, and `JsonValue` is such data.

## Main results

* `literal_eq_none_iff` — which values have no literal.
* `tupleLiteral_eq_none_iff` — the same for several values.
-/

namespace FlavorTable

theorem mapM_eq_none_iff {α β : Type} {f : α → Option β} {as : List α} :
    as.mapM f = none ↔ ∃ a ∈ as, f a = none := by
  induction as with
  | nil => simp
  | cons a rest ih =>
      rw [List.mapM_cons]
      cases hFirst : f a with
      | none => simp [hFirst]
      | some b => cases hRest : rest.mapM f <;> simp_all

namespace Value

/-- A number that is too long to be written stands in the value. -/
inductive HoldsTooLong : Value → Prop where
  | int {n : Int} (h : Number.TooLong n) : HoldsTooLong (.int n)
  | item {items : List Value} {item : Value} (hMem : item ∈ items) (h : HoldsTooLong item) :
      HoldsTooLong (.list items)
  | field {names : FieldNames} {field : {name // name ∈ names.list} → Value}
      (name : {name // name ∈ names.list}) (h : HoldsTooLong (field name)) :
      HoldsTooLong (.record names field)

theorem literals_eq_mapM (values : List Value) : literals values = values.mapM literal := by
  induction values with
  | nil => rfl
  | cons value rest ih => rw [literals, List.mapM_cons, ih]

theorem literals_eq_none_iff {values : List Value} :
    literals values = none ↔ ∃ value ∈ values, value.literal = none := by
  rw [literals_eq_mapM, mapM_eq_none_iff]

theorem literal_record_eq_none_iff {names : FieldNames}
    {field : {name // name ∈ names.list} → Value} :
    literal (.record names field) = none ↔ ∃ name, (field name).literal = none := by
  rw [literal, Option.map_eq_none_iff, mapM_eq_none_iff]
  simp

theorem HoldsTooLong.literal_eq {value : Value} (h : value.HoldsTooLong) :
    value.literal = none := by
  induction h with
  | int h => rw [literal, Number.integer, if_pos h]
  | item hMem _ ih =>
      rw [literal, Option.map_eq_none_iff, literals_eq_none_iff]
      exact ⟨_, hMem, ih⟩
  | field name _ ih => exact literal_record_eq_none_iff.mpr ⟨name, ih⟩

mutual

/-- Whatever has no literal holds a number that is too long. -/
theorem holdsTooLong_of_literal_eq : ∀ (value : Value), value.literal = none → value.HoldsTooLong
  | .null, h | .float _, h | .text _, h | .bool true, h | .bool false, h => nomatch h
  | .int n, h => by
      by_cases hLong : Number.TooLong n
      · exact .int hLong
      · rw [literal, Number.integer, if_neg hLong] at h
        cases h
  | .list items, h => by
      rw [literal, Option.map_eq_none_iff] at h
      obtain ⟨item, hMem, hItem⟩ := exists_holdsTooLong_of_literals_eq items h
      exact .item hMem hItem
  | .record names field, h => by
      obtain ⟨name, hField⟩ := literal_record_eq_none_iff.mp h
      exact .field name (holdsTooLong_of_literal_eq (field name) hField)

theorem exists_holdsTooLong_of_literals_eq :
    ∀ (values : List Value), literals values = none → ∃ value ∈ values, value.HoldsTooLong
  | [], h => nomatch h
  | value :: rest, h => by
      rw [literals_eq_none_iff] at h
      simp only [List.mem_cons, exists_eq_or_imp] at h ⊢
      rcases h with hValue | hRest
      · exact .inl (holdsTooLong_of_literal_eq value hValue)
      · exact .inr (exists_holdsTooLong_of_literals_eq rest (literals_eq_none_iff.mpr hRest))

end

theorem literal_eq_none_iff {value : Value} : value.literal = none ↔ value.HoldsTooLong :=
  ⟨holdsTooLong_of_literal_eq value, HoldsTooLong.literal_eq⟩

theorem tupleLiteral_eq_none_iff {values : List Value} :
    tupleLiteral values = none ↔ ∃ value ∈ values, value.HoldsTooLong := by
  rw [tupleLiteral, Option.map_eq_none_iff, literals_eq_none_iff]
  simp only [literal_eq_none_iff]

end Value

/-- Data that was read from a text. -/
structure JsonValue where
  value : Value
  written : ¬value.HoldsTooLong

end FlavorTable
