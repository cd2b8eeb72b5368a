import FlavorTable.Indexes
import FlavorTable.Proofs.Row.Last

/-!
# Entries against lookups

An index is read in two ways: a seek looks one key up, and a scan walks the
list of entries.  The two readings agree as long as no key has two entries.
Every update goes through `alter`, which keeps that property, so it holds of
each of the three indexes of a table.

## Main results

* `UniqueKeys.alter` — an update never gives a key a second entry.
* `mem_entries_iff` — the entries are the answers of the lookup.
* `unique_ofRows` — the indexes of a table have unique keys.
* `mem_entries_primary_iff` — the primary index spells out the last row of each
  product, and no other row.
-/

namespace FlavorTable

namespace Index

variable {κ α : Type}

/-- No key has two entries. -/
def UniqueKeys (index : Index κ α) : Prop := index.keys.Nodup

theorem uniqueKeys_empty : (empty : Index κ α).UniqueKeys := List.nodup_nil

variable [DecidableEq κ]

theorem UniqueKeys.alter {index : Index κ α} (h : index.UniqueKeys) (key : κ)
    (change : Option α → α) : (index.alter key change).UniqueKeys := by
  unfold UniqueKeys at h ⊢
  rw [keys_alter]
  by_cases hMem : key ∈ index.keys
  · rw [if_pos hMem]
    exact h
  · have hApart : ∀ other ∈ index.keys, ∀ new ∈ [key], other ≠ new := by
      intro other hOther new hNew hEq
      have hKey : new = key := List.mem_singleton.mp hNew
      exact hMem (hKey ▸ hEq ▸ hOther)
    rw [if_neg hMem]
    exact List.nodup_append.mpr ⟨h, by simp, hApart⟩

theorem find_eq_some_iff {entries : List (κ × α)} (h : (entries.map Prod.fst).Nodup)
    {key : κ} {a : α} : find key entries = some a ↔ (key, a) ∈ entries := by
  induction entries with
  | nil => simp [find]
  | cons entry rest ih =>
      obtain ⟨k, b⟩ := entry
      rw [List.map_cons, List.nodup_cons] at h
      rw [find, List.mem_cons]
      by_cases hKey : k = key
      · subst hKey
        -- The key stands in front, so uniqueness keeps it out of the rest.
        have hRest : (k, a) ∉ rest := by
          intro hMem
          exact h.1 (List.mem_map.mpr ⟨(k, a), hMem, rfl⟩)
        simp [hRest, eq_comm]
      · rw [if_neg hKey, ih h.2]
        simp [Ne.symm hKey]

/-- With unique keys, walking the entries and looking keys up find the same. -/
theorem UniqueKeys.mem_entries_iff {index : Index κ α} (h : index.UniqueKeys) {key : κ} {a : α} :
    (key, a) ∈ index.entries ↔ index.get? key = some a :=
  (find_eq_some_iff h).symm

end Index

namespace Indexes

/-- No key of any of the three indexes has two entries. -/
structure Unique (indexes : Indexes) : Prop where
  primary : indexes.primary.UniqueKeys
  byFlavor : indexes.byFlavor.UniqueKeys
  byBaseFlavor : indexes.byBaseFlavor.UniqueKeys

theorem unique_empty : empty.Unique :=
  ⟨Index.uniqueKeys_empty, Index.uniqueKeys_empty, Index.uniqueKeys_empty⟩

theorem Unique.add {indexes : Indexes} (h : indexes.Unique) (row : Row) :
    (indexes.add row).Unique :=
  ⟨h.primary.alter _ _, h.byFlavor.alter _ _, h.byBaseFlavor.alter _ _⟩

theorem Unique.foldl {indexes : Indexes} (h : indexes.Unique) (rows : List Row) :
    (rows.foldl Indexes.add indexes).Unique := by
  induction rows generalizing indexes with
  | nil => exact h
  | cons row rest ih => exact ih (h.add row)

/-- The indexes of a table have unique keys. -/
theorem unique_ofRows (rows : List Row) : (ofRows rows).Unique :=
  unique_empty.foldl rows

/-- The primary index spells out the last row of each product. -/
theorem mem_entries_primary_iff {rows : List Row} {maker flavor baseFlavor : String} :
    ((maker, flavor), baseFlavor) ∈ (ofRows rows).primary.entries ↔
      Row.IsLast rows ⟨maker, flavor, baseFlavor⟩ := by
  rw [(unique_ofRows rows).primary.mem_entries_iff, get?_primary_ofRows, Row.isLast_iff_find?,
    Option.map_eq_some_iff]
  constructor
  · intro h
    obtain ⟨row, hFind, hBase⟩ := h
    have hProduct : row.product = (maker, flavor) := by
      simpa using List.find?_some hFind
    have hRow : row = ⟨maker, flavor, baseFlavor⟩ := Row.eq_of_product hProduct hBase
    rw [← hRow, hProduct]
    exact hFind
  · intro hFind
    exact ⟨_, hFind, rfl⟩

end Indexes

end FlavorTable
