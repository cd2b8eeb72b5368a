import FlavorTable.Value.Key

/-!
# Collections of keys

A seek takes its keys from any loose data that stands for keys: a bare text,
which is one key, or data whose parts are keys, texts or not.  What is walked
in either case are the entries of the data.  A `KeyCollection` carries the
data together with its entries and their keys, so it never fails to be looked
up.

Two collections are joined by listing the entries of the one and then of the
other, whatever their shapes are.  The keys of the joined collection are the
keys of both.

## Main results

* `Value.keys_eq_ok_iff` — the keys of a value are those of its entries.
* `KeyCollection.join` — the joined collection, with its keys.
* `Value.exists_collection_iff` — every value that stands for keys is a collection.
-/

namespace FlavorTable

namespace Value

/-- What is walked when a value is taken for keys. A bare text is its own only entry. -/
def entries : Value → Except Misuse (List Value)
  | .text s => .ok [.text s]
  | value => value.items

/-- A value stands for keys when it has entries and each of them is a key. -/
theorem keys_eq_ok_iff {value : Value} {keys : List Key} :
    value.keys = .ok keys ↔
      ∃ entries found, value.entries = .ok entries ∧ entries.mapM key = .ok found ∧
        keys = Key.distinct found := by
  have hWalk : value.keys = (do
      let entries ← value.entries
      let found ← entries.mapM key
      return Key.distinct found) := by
    cases value <;> rfl
  rw [hWalk]
  constructor
  · intro h
    cases hEntries : value.entries with
    | error misuse =>
        rw [hEntries] at h
        cases h
    | ok entries =>
        rw [hEntries] at h
        change (do let found ← entries.mapM key; return Key.distinct found) = _ at h
        cases hFound : entries.mapM key with
        | error misuse =>
            rw [hFound] at h
            cases h
        | ok found =>
            rw [hFound] at h
            exact ⟨entries, found, rfl, hFound, (Except.ok.inj h).symm⟩
  · rintro ⟨entries, found, hEntries, hFound, rfl⟩
    rw [hEntries]
    show (do let found ← entries.mapM key; return Key.distinct found) = _
    rw [hFound]
    rfl

end Value

/-- Loose data that stands for keys, with its entries and their keys. -/
structure KeyCollection where
  value : Value
  entries : List Value
  /-- The keys of the entries, with repetitions. -/
  keys : List Key
  entries_value : value.entries = .ok entries
  keys_entries : entries.mapM Value.key = .ok keys

namespace KeyCollection

/-- A collection stands for its distinct keys. -/
theorem keys_value (collection : KeyCollection) :
    collection.value.keys = .ok (Key.distinct collection.keys) :=
  Value.keys_eq_ok_iff.mpr ⟨_, _, collection.entries_value, collection.keys_entries, rfl⟩

/-- The collection of the entries of two collections. -/
def join (first second : KeyCollection) : KeyCollection where
  value := .list (first.entries ++ second.entries)
  entries := first.entries ++ second.entries
  keys := first.keys ++ second.keys
  entries_value := rfl
  keys_entries := by
    rw [List.mapM_append, first.keys_entries, second.keys_entries]
    rfl

end KeyCollection

/-- Every value that stands for keys is a collection of keys. -/
theorem Value.exists_collection_iff {value : Value} :
    (∃ collection : KeyCollection, collection.value = value) ↔
      ∃ keys, value.keys = .ok keys := by
  constructor
  · rintro ⟨collection, rfl⟩
    exact ⟨_, collection.keys_value⟩
  · rintro ⟨keys, hKeys⟩
    obtain ⟨entries, found, hEntries, hFound, -⟩ := keys_eq_ok_iff.mp hKeys
    exact ⟨⟨value, entries, found, hEntries, hFound⟩, rfl⟩

end FlavorTable
