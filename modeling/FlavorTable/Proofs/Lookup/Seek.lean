import FlavorTable.Query
import FlavorTable.Proofs.Value.TextKeys

/-!
# What a seek finds

A seek collects the groups of an index under its keys and rebuilds the rows
from them.  Both grouped indexes keep every row of the table, so nothing is
lost and nothing is made up: the rows found are the rows of the table that
have one of the keys.

## Main results

* `mem_rowsByFlavor`, `mem_rowsByBaseFlavor` — the rows that a seek finds.
* `flavorSeek_value` — a seek for texts succeeds, and what it reports.
-/

namespace FlavorTable.Engine

/-- The engine that holds the given rows. -/
def holding (rows : List Row) : Engine := ⟨rows, Indexes.ofRows rows⟩

/-- The rows found in an index that groups a table by a column.  `entry` is what
the index stores of a row, and `rebuild` restores the row from it. -/
theorem mem_ofList_groups {rows : List Row} {index : Index String (List (String × String))}
    {column : Row → String} {entry : Row → String × String}
    {rebuild : String → String × String → Row}
    (hGroup : ∀ s, (index.get? s).getD [] = (rows.filter fun row => column row = s).map entry)
    (hRebuild : ∀ row, rebuild (column row) (entry row) = row) {keys : List Key} {row : Row} :
    row ∈ RowSet.ofList (keys.flatMap (group index rebuild)) ↔
      row ∈ rows ∧ Key.text (column row) ∈ keys := by
  rw [RowSet.mem_ofList, List.mem_flatMap]
  constructor
  · intro h
    obtain ⟨key, hKey, hFound⟩ := h
    obtain ⟨s, rfl, stored, hStored, rfl⟩ := mem_group.mp hFound
    rw [hGroup] at hStored
    obtain ⟨source, hSource, rfl⟩ := List.mem_map.mp hStored
    obtain ⟨hMem, hColumn⟩ := List.mem_filter.mp hSource
    have hColumn : column source = s := by simpa using hColumn
    subst hColumn
    rw [hRebuild]
    exact ⟨hMem, hKey⟩
  · intro h
    obtain ⟨hMem, hKey⟩ := h
    have hStored : entry row ∈ (index.get? (column row)).getD [] := by
      rw [hGroup]
      exact List.mem_map_of_mem (List.mem_filter.mpr ⟨hMem, by simp⟩)
    exact ⟨_, hKey, mem_group.mpr ⟨_, rfl, entry row, hStored, hRebuild row⟩⟩

/-- The seek by flavor finds the rows whose flavor is among the keys. -/
theorem mem_rowsByFlavor {rows : List Row} {keys : List Key} {row : Row} :
    row ∈ (holding rows).rowsByFlavor keys ↔ row ∈ rows ∧ Key.text row.flavor ∈ keys :=
  mem_ofList_groups (Indexes.getD_byFlavor_ofRows rows) fun _ => rfl

/-- The seek by base flavor finds the rows whose base flavor is among the keys. -/
theorem mem_rowsByBaseFlavor {rows : List Row} {keys : List Key} {row : Row} :
    row ∈ (holding rows).rowsByBaseFlavor keys ↔ row ∈ rows ∧ Key.text row.baseFlavor ∈ keys :=
  mem_ofList_groups (Indexes.getD_byBaseFlavor_ofRows rows) fun _ => rfl

theorem outcome_ofRows_bind {α : Type} (rows : List Row) (next : Engine → Run α) :
    (ofRows rows >>= next).outcome = (next (holding rows)).outcome := rfl

theorem flavorSeek_value (engine : Engine) (flavors : TextKeys) :
    engine.flavorSeek flavors.value =
      ⟨.ok (engine.rowsByFlavor flavors.keys),
        [.flavorSeek flavors.keys.length (engine.rowsByFlavor flavors.keys).size]⟩ :=
  engine.flavorSeek_of_keys flavors.keys_value

theorem flavorSeek_of_misuse (engine : Engine) {flavors : Value} {misuse : Value.Misuse}
    (h : flavors.keys = .error misuse) :
    engine.flavorSeek flavors = ⟨.error (.misuse misuse), []⟩ := by
  simp [flavorSeek, h]

end FlavorTable.Engine
