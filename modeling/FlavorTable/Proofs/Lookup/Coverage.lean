import FlavorTable.Proofs.Lookup.Counts

/-!
# Seeks by flavor and by base flavor

Both seeks are sound and complete: each finds the rows of the table that have
one of the keys in its column, and no others.  They differ in what they leave
behind.  The seek by flavor reports its counts.  The seek by base flavor only
warns, since a query restricted by flavor never needs it.

Taking the second for a superset of the first is right for some tables and
wrong for others.  It is right exactly where every row with a requested flavor
has a requested base flavor as well.

## Main results

* `baseFlavorSeek_value` — a seek by base flavor for texts succeeds with a warning.
* `rowsByFlavor_subset_iff` — when the seek by base flavor finds all the rows
  that the seek by flavor does.
* `seeks_find_rows_with_keys` — the meaning of both seeks on a table.
-/

namespace FlavorTable.Engine

theorem baseFlavorSeek_value (engine : Engine) (baseFlavors : TextKeys) :
    engine.baseFlavorSeek baseFlavors.value =
      ⟨.ok (engine.rowsByBaseFlavor baseFlavors.keys), [.baseFlavorSeek]⟩ := by
  simp [baseFlavorSeek, baseFlavors.keys_value, Run.note]

variable {rows : List Row} {keys : TextKeys}

theorem mem_rowsByFlavor_texts {row : Row} :
    row ∈ (holding rows).rowsByFlavor keys.keys ↔ row ∈ rows ∧ row.flavor ∈ keys := by
  rw [mem_rowsByFlavor, TextKeys.mem_keys_iff]

theorem mem_rowsByBaseFlavor_texts {row : Row} :
    row ∈ (holding rows).rowsByBaseFlavor keys.keys ↔ row ∈ rows ∧ row.baseFlavor ∈ keys := by
  rw [mem_rowsByBaseFlavor, TextKeys.mem_keys_iff]

/-- The seek by base flavor finds what the seek by flavor does where the rows of the requested
flavors have requested base flavors. -/
theorem rowsByFlavor_subset_iff :
    (∀ row ∈ (holding rows).rowsByFlavor keys.keys,
        row ∈ (holding rows).rowsByBaseFlavor keys.keys) ↔
      ∀ row ∈ rows, row.flavor ∈ keys → row.baseFlavor ∈ keys := by
  constructor
  · intro hSubset row hRow hFlavor
    have hFound := hSubset row (mem_rowsByFlavor_texts.mpr ⟨hRow, hFlavor⟩)
    exact (mem_rowsByBaseFlavor_texts.mp hFound).2
  · intro hBase row hFound
    obtain ⟨hRow, hFlavor⟩ := mem_rowsByFlavor_texts.mp hFound
    exact mem_rowsByBaseFlavor_texts.mpr ⟨hRow, hBase row hRow hFlavor⟩

/-- **Both seeks are sound and complete.** On every table and for every
collection of texts the seek by flavor finds the rows whose flavor is in the
collection, and notes how many different keys there were and how many rows it
found; the seek by base flavor finds the rows whose base flavor is in the
collection, and leaves a warning and nothing else.  The rows that were found by
flavor are among those found by base flavor exactly when every row of a
requested flavor has a requested base flavor. -/
theorem seeks_find_rows_with_keys (rows : List Row) (keys : TextKeys) :
    ∃ engine, (ofRows rows).outcome = .ok engine ∧
      ∃ (found deprecated : RowSet) (notes : List Note),
        engine.flavorSeek keys.value =
          ⟨.ok found, [.flavorSeek keys.texts.toFinset.card found.size]⟩ ∧
        (∀ row, row ∈ found ↔ row ∈ rows ∧ row.flavor ∈ keys) ∧
        engine.baseFlavorSeek keys.value = ⟨.ok deprecated, notes⟩ ∧
        (∀ row, row ∈ deprecated ↔ row ∈ rows ∧ row.baseFlavor ∈ keys) ∧
        notes.filter (fun note => note.level = .warning) = [.baseFlavorSeek] ∧
        notes.filter (fun note => note.level ≠ .warning) = [] ∧
        ((∀ row ∈ found, row ∈ deprecated) ↔
          ∀ row ∈ rows, row.flavor ∈ keys → row.baseFlavor ∈ keys) := by
  refine ⟨holding rows, outcome_ofRows rows, _, _, _, ?_, fun row => mem_rowsByFlavor_texts,
    baseFlavorSeek_value _ keys, fun row => mem_rowsByBaseFlavor_texts, rfl, rfl,
    rowsByFlavor_subset_iff⟩
  rw [flavorSeek_value, keys.length_keys]

/-- No row has the base flavor Mint, so the seek by base flavor misses the row that the seek
by flavor finds. -/
example :
    ((holding [⟨"Graeters", "Mint", "Misc"⟩]).rowsByFlavor (TextKeys.one "Mint").keys).size = 1 ∧
      ((holding [⟨"Graeters", "Mint", "Misc"⟩]).rowsByBaseFlavor
        (TextKeys.one "Mint").keys).size = 0 := by
  decide

end FlavorTable.Engine
