import Mathlib.Data.Finset.Card
import FlavorTable.Proofs.Index.Views
import FlavorTable.Proofs.Lookup.Scan

/-!
# What lookups count

A seek reports how many keys it looked up, and a scan how many makers it
tested.  Both numbers come from lists that the lookups keep for themselves: the
keys without repetitions, and the memory of the scan.  Neither list has an
element twice, so its length is the number of different elements of what was
given, which is the cardinality of a finite set.

The memory of a scan is filled in passing.  After some entries of the primary
index it holds the makers of these entries, and the primary index has every
maker of the table.

## Main results

* `length_eq_card_toFinset` — lists without repetitions against finite sets.
* `TextKeys.length_keys` — a seek counts its different keys.
* `Scan.Remembers.step` — a step remembers the maker of its entry.
* `size_tested` — a scan counts the different makers of the table.
-/

namespace FlavorTable

/-- A list that names the elements of another one, each of them once, is as long as that
one has different elements. -/
theorem length_eq_card_toFinset {α : Type} [DecidableEq α] {distinct all : List α}
    (hUnique : distinct.Nodup) (hMem : ∀ a, a ∈ distinct ↔ a ∈ all) :
    distinct.length = all.toFinset.card := by
  have hSame : distinct.toFinset = all.toFinset := by
    ext a
    rw [List.mem_toFinset, List.mem_toFinset, hMem]
  rw [← hSame, List.toFinset_card_of_nodup hUnique]

/-! ## Keys -/

/-- No key is left twice. -/
theorem Key.nodup_distinct (keys : List Key) : (distinct keys).Nodup := by
  match keys with
  | [] => exact List.nodup_nil
  | key :: rest =>
      have hRest := Key.nodup_distinct (rest.filter fun other => !other == key)
      unfold distinct at hRest ⊢
      rw [List.eraseDups_cons, List.nodup_cons]
      exact ⟨by simp, hRest⟩
termination_by keys.length
decreasing_by exact Nat.lt_succ_of_le (List.length_filter_le _ rest)

/-- A seek counts the different texts that it was given. -/
theorem TextKeys.length_keys (collection : TextKeys) :
    collection.keys.length = collection.texts.toFinset.card := by
  have hCount : collection.keys.length = (collection.texts.map Key.text).toFinset.card :=
    length_eq_card_toFinset (Key.nodup_distinct _) fun _ => Key.mem_distinct
  have hImage : (collection.texts.map Key.text).toFinset =
      collection.texts.toFinset.image Key.text := by
    ext key
    simp
  rw [hCount, hImage, Finset.card_image_of_injective _ fun _ _ => Key.text.inj]

/-! ## Makers -/

namespace Engine

/-- The memory of a scan holds the makers of the entries that it has passed, each of them once. -/
structure Scan.Remembers (passed : List ((String × String) × String)) (scan : Scan) : Prop where
  unique : scan.tested.UniqueKeys
  makers : ∀ maker, maker ∈ scan.tested.keys ↔ ∃ entry ∈ passed, entry.1.1 = maker

namespace Scan

theorem remembers_start : Remembers [] ⟨.empty, []⟩ := by
  refine
    { unique := Index.uniqueKeys_empty
      makers := ?_ }
  simp [Index.empty, Index.keys]

variable {passed : List ((String × String) × String)} {scan : Scan}

/-- A step remembers the maker of its entry and forgets none. -/
theorem Remembers.step (h : scan.Remembers passed) (suffix : Value)
    (entry : (String × String) × String) :
    (scan.step suffix entry).Remembers (passed ++ [entry]) := by
  obtain ⟨⟨maker, flavor⟩, baseFlavor⟩ := entry
  refine
    { unique := h.unique.alter _ _
      makers := ?_ }
  intro other
  simp [Scan.step, Index.put, Index.mem_keys_alter, h.makers, or_and_right, exists_or]

theorem Remembers.foldl (h : scan.Remembers passed) (suffix : Value)
    (entries : List ((String × String) × String)) :
    (entries.foldl (Scan.step suffix) scan).Remembers (passed ++ entries) := by
  induction entries generalizing passed scan with
  | nil => simpa using h
  | cons entry rest ih =>
      have hRest := ih (h.step suffix entry)
      rwa [List.append_assoc, List.singleton_append] at hRest

end Scan

theorem remembers_scan (engine : Engine) (suffix : Value) :
    (engine.scan suffix).Remembers engine.indexes.primary.entries :=
  Scan.remembers_start.foldl suffix _

/-- A scan counts the different makers of the table. -/
theorem size_tested (rows : List Row) (suffix : Value) :
    ((holding rows).scan suffix).tested.size = (rows.map Row.maker).toFinset.card := by
  have hScan := (holding rows).remembers_scan suffix
  have hMakers : ∀ maker, maker ∈ ((holding rows).scan suffix).tested.keys ↔
      maker ∈ rows.map Row.maker := by
    intro maker
    rw [hScan.makers, List.mem_map]
    constructor
    · rintro ⟨entry, hEntry, rfl⟩
      have hKey : entry.1 ∈ (Indexes.ofRows rows).primary.keys := List.mem_map_of_mem hEntry
      obtain ⟨row, hRow, hProduct⟩ := ((Indexes.keyed_ofRows rows).primary _).mp hKey
      exact ⟨row, hRow, congrArg Prod.fst hProduct⟩
    · rintro ⟨row, hRow, rfl⟩
      have hKey : row.product ∈ (Indexes.ofRows rows).primary.keys :=
        ((Indexes.keyed_ofRows rows).primary _).mpr ⟨row, hRow, rfl⟩
      obtain ⟨entry, hEntry, hProduct⟩ := List.mem_map.mp hKey
      exact ⟨entry, hEntry, congrArg Prod.fst hProduct⟩
  have hSize : ((holding rows).scan suffix).tested.size =
      ((holding rows).scan suffix).tested.keys.length := by
    rw [Index.size, Index.keys, List.length_map]
  rw [hSize]
  exact length_eq_card_toFinset hScan.unique hMakers

end Engine

end FlavorTable
