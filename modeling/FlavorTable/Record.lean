import FlavorTable.Row.Order

/-!
# Rows as records

A record names each field of a row by its column. Records are listed in the
ascending order of their rows, with repetitions kept.

## Main results

* `records_eq_of_perm` — the records do not depend on the order of the rows.
* `record_injective`, `mem_records` — the records tell which rows there are.
-/

namespace FlavorTable

/-- Column names with their values, in column order. -/
abbrev Record := List (String × String)

namespace Row

def record (row : Row) : Record := header.fields.zip row.fields

/-- The values of a record are the fields of the row. -/
@[simp] theorem map_snd_record (row : Row) : row.record.map Prod.snd = row.fields := rfl

/-- The records of the rows, in ascending order. -/
def records (rows : List Row) : List Record := (sorted rows).map record

theorem records_eq_of_perm {a b : List Row} (h : a.Perm b) : records a = records b := by
  rw [records, records, sorted_eq_of_perm h]

/-- A record tells its row. -/
theorem record_injective {a b : Row} (h : a.record = b.record) : a = b := by
  apply fields_injective
  rw [← map_snd_record a, ← map_snd_record b, h]

theorem mem_records {row : Row} {rows : List Row} : row.record ∈ records rows ↔ row ∈ rows := by
  rw [records, List.mem_map]
  constructor
  · rintro ⟨found, hFound, hRecord⟩
    rw [← record_injective hRecord]
    exact (sorted_perm rows).mem_iff.mp hFound
  · intro hRow
    exact ⟨row, (sorted_perm rows).mem_iff.mpr hRow, rfl⟩

end Row

end FlavorTable
