import FlavorTable.Engine
import FlavorTable.Proofs.Index.Entries

/-!
# The indexes as views of the table

The three indexes of a table are filled by the same pass and treat repeated
keys in two ways: the grouped ones append, the primary one overwrites.  Still
they show the same table.  A grouped index lists under each key the rows that
have it, so its groups, put together in any order, are the table up to the
order of its rows.  The primary index has what is left of a group when later
entries of a maker replace earlier ones.

## Main results

* `Keyed.add`, `keyed_ofRows` — the keys of the indexes are those that occur.
* `groups_of_getD` — what makes an index a grouping of the table.
* `get?_primary_eq_getLast?` — the primary index agrees with the groups.
* `ofRows_shows_table` — the three views together.
-/

namespace FlavorTable

namespace Index

variable {κ α : Type} [DecidableEq κ]

theorem mem_keys_alter {index : Index κ α} {key other : κ} {change : Option α → α} :
    other ∈ (index.alter key change).keys ↔ other ∈ index.keys ∨ key = other := by
  rw [keys_alter]
  by_cases hMem : key ∈ index.keys
  · rw [if_pos hMem]
    constructor
    · exact .inl
    · rintro (hOther | rfl)
      · exact hOther
      · exact hMem
  · rw [if_neg hMem, List.mem_append, List.mem_singleton, eq_comm (a := other)]

/-- Every key has an entry. -/
theorem exists_get?_of_mem_keys {index : Index κ α} (h : index.UniqueKeys) {key : κ}
    (hKey : key ∈ index.keys) : ∃ a, index.get? key = some a := by
  obtain ⟨⟨_, a⟩, hEntry, rfl⟩ := List.mem_map.mp hKey
  exact ⟨a, h.mem_entries_iff.mp hEntry⟩

end Index

namespace Indexes

/-! ## Keys -/

/-- The keys of each index are the ones that occur in the table. -/
structure Keyed (rows : List Row) (indexes : Indexes) : Prop where
  primary : ∀ product, product ∈ indexes.primary.keys ↔ ∃ row ∈ rows, row.product = product
  byFlavor : ∀ s, s ∈ indexes.byFlavor.keys ↔ ∃ row ∈ rows, row.flavor = s
  byBaseFlavor : ∀ s, s ∈ indexes.byBaseFlavor.keys ↔ ∃ row ∈ rows, row.baseFlavor = s

theorem keyed_empty : Keyed [] empty := by
  refine
    { primary := ?_
      byFlavor := ?_
      byBaseFlavor := ?_ }
  all_goals simp [empty, Index.empty, Index.keys]

/-- A row brings its own keys and no others. -/
theorem Keyed.add {rows : List Row} {indexes : Indexes} (h : Keyed rows indexes) (row : Row) :
    Keyed (rows ++ [row]) (indexes.add row) := by
  refine
    { primary := ?_
      byFlavor := ?_
      byBaseFlavor := ?_ }
  · intro product
    simp [Indexes.add, Index.put, Index.mem_keys_alter, h.primary, or_and_right, exists_or]
  · intro s
    simp [Indexes.add, Index.push, Index.mem_keys_alter, h.byFlavor, or_and_right, exists_or]
  · intro s
    simp [Indexes.add, Index.push, Index.mem_keys_alter, h.byBaseFlavor, or_and_right, exists_or]

theorem Keyed.foldl {done : List Row} {indexes : Indexes} (h : Keyed done indexes)
    (rows : List Row) : Keyed (done ++ rows) (rows.foldl Indexes.add indexes) := by
  induction rows generalizing done indexes with
  | nil => simpa using h
  | cons row rest ih =>
      have hRest := ih (h.add row)
      rwa [List.append_assoc, List.singleton_append] at hRest

theorem keyed_ofRows (rows : List Row) : Keyed rows (ofRows rows) := keyed_empty.foldl rows

/-! ## Groups -/

/-- The groups of distinct keys hold each row that has one of the keys once. -/
theorem flatMap_filter_perm {ρ κ : Type} [DecidableEq κ] (column : ρ → κ) {keys : List κ}
    (h : keys.Nodup) (rows : List ρ) :
    (keys.flatMap fun key => rows.filter fun row => column row = key).Perm
      (rows.filter fun row => column row ∈ keys) := by
  induction keys with
  | nil => simp
  | cons key rest ih =>
      obtain ⟨hKey, hRest⟩ := List.nodup_cons.mp h
      let found := rows.filter fun row => column row ∈ key :: rest
      have hFirst : (rows.filter fun row => column row = key) =
          found.filter fun row => column row = key := by
        rw [List.filter_filter]
        apply List.filter_congr
        intro row _
        by_cases hRow : column row = key <;> simp [hRow]
      have hOthers : (rows.filter fun row => column row ∈ rest) =
          found.filter fun row => !decide (column row = key) := by
        rw [List.filter_filter]
        apply List.filter_congr
        intro row _
        by_cases hRow : column row = key <;> simp [hRow, hKey]
      have hSplit : ((rows.filter fun row => column row = key) ++
          rows.filter fun row => column row ∈ rest).Perm found := by
        rw [hFirst, hOthers]
        exact List.filter_append_perm _ found
      rw [List.flatMap_cons]
      exact ((ih hRest).append_left _).trans hSplit

/-- An index that groups a table by a column.  `entry` is what it stores of a
row, and `rebuild` restores the row from the key and the entry. -/
structure Groups (rows : List Row) (column : Row → String) (entry : Row → String × String)
    (rebuild : String → String × String → Row) (index : Index String (List (String × String))) :
    Prop where
  /-- No key has two groups. -/
  unique : index.keys.Nodup
  /-- The keys are what occurs in the column. -/
  keys : ∀ s, s ∈ index.keys ↔ ∃ row ∈ rows, column row = s
  /-- A group lists the rows of its key in order and with repetitions. -/
  group : ∀ s ∈ index.keys,
    index.get? s = some ((rows.filter fun row => column row = s).map entry)
  /-- The groups in any order make up the table. -/
  rebuilt : ∀ entries : List (String × List (String × String)), entries.Perm index.entries →
    (entries.flatMap fun stored => stored.2.map (rebuild stored.1)).Perm rows

section Groups

variable {rows : List Row} {column : Row → String} {entry : Row → String × String}
  {rebuild : String → String × String → Row} {index : Index String (List (String × String))}

/-- The entries of an index in any order spell out the rows of its keys, if each
group spells out the rows of its own key. -/
theorem flatMap_entries_perm
    (hGroup : ∀ stored ∈ index.entries,
      stored.2.map (rebuild stored.1) = rows.filter fun row => column row = stored.1)
    (hUnique : index.keys.Nodup) {entries : List (String × List (String × String))}
    (hEntries : entries.Perm index.entries) :
    (entries.flatMap fun stored => stored.2.map (rebuild stored.1)).Perm
      (rows.filter fun row => column row ∈ index.keys) := by
  have hKeys : (index.entries.flatMap fun stored => stored.2.map (rebuild stored.1)) =
      index.keys.flatMap fun s => rows.filter fun row => column row = s := by
    rw [Index.keys, List.flatMap_map, List.flatMap_def, List.flatMap_def,
      List.map_congr_left hGroup]
  have hAll := flatMap_filter_perm column hUnique rows
  rw [← hKeys] at hAll
  exact (hEntries.flatMap_right _).trans hAll

/-- An index with the right keys and the right groups groups the table. -/
theorem groups_of_getD (hUnique : index.UniqueKeys)
    (hKeys : ∀ s, s ∈ index.keys ↔ ∃ row ∈ rows, column row = s)
    (hGroup : ∀ s, (index.get? s).getD [] = (rows.filter fun row => column row = s).map entry)
    (hRebuild : ∀ row, rebuild (column row) (entry row) = row) :
    Groups rows column entry rebuild index := by
  refine
    { unique := hUnique
      keys := hKeys
      group := ?_
      rebuilt := ?_ }
  · intro s hKey
    obtain ⟨group, hGet⟩ := Index.exists_get?_of_mem_keys hUnique hKey
    have hFound := hGroup s
    rw [hGet, Option.getD_some] at hFound
    rw [hGet, hFound]
  · intro entries hEntries
    have hSpelled : ∀ stored ∈ index.entries,
        stored.2.map (rebuild stored.1) = rows.filter fun row => column row = stored.1 := by
      rintro ⟨s, group⟩ hStored
      have hFound := hGroup s
      rw [hUnique.mem_entries_iff.mp hStored, Option.getD_some] at hFound
      rw [hFound, List.map_map]
      -- Every row of the group has the key `s`, from which it is rebuilt.
      refine (List.map_congr_left fun row hRow => ?_).trans (List.map_id _)
      have hColumn : column row = s := by simpa using (List.mem_filter.mp hRow).2
      exact hColumn ▸ hRebuild row
    have hAll : (rows.filter fun row => column row ∈ index.keys) = rows := by
      rw [List.filter_eq_self]
      intro row hRow
      exact decide_eq_true ((hKeys _).mpr ⟨row, hRow, rfl⟩)
    have hPerm := flatMap_entries_perm hSpelled hUnique hEntries
    rwa [hAll] at hPerm

end Groups

/-! ## The primary index -/

/-- The primary index has, of the group of a flavor, the last entry of each maker. -/
theorem get?_primary_eq_getLast? (rows : List Row) (maker flavor : String) :
    (ofRows rows).primary.get? (maker, flavor) =
      ((((ofRows rows).byFlavor.get? flavor).getD []).filter
        fun stored => stored.1 = maker).getLast?.map Prod.snd := by
  rw [get?_primary_ofRows, getD_byFlavor_ofRows, List.filter_map, List.getLast?_map,
    List.filter_filter, List.getLast?_filter, Option.map_map]
  have hProduct : (fun row : Row => decide (row.product = (maker, flavor))) = fun row =>
      ((fun stored : String × String => decide (stored.1 = maker)) ∘
        fun row : Row => (row.maker, row.baseFlavor)) row && decide (row.flavor = flavor) := by
    funext row
    simp [Row.product]
  rw [hProduct]
  rfl

/-- An index with one base flavor for each product of a table, the last one entered. -/
structure KeepsLast (rows : List Row) (indexes : Indexes) : Prop where
  /-- No product has two entries. -/
  unique : indexes.primary.keys.Nodup
  /-- The keys are the products that occur. -/
  keys : ∀ product, product ∈ indexes.primary.keys ↔ ∃ row ∈ rows, row.product = product
  /-- The last row of a product decides its base flavor. -/
  last : ∀ row : Row, row.IsLast rows → indexes.primary.get? row.product = some row.baseFlavor
  /-- It is also the last base flavor that the group of the flavor has for the maker. -/
  grouped : ∀ maker flavor, indexes.primary.get? (maker, flavor) =
    (((indexes.byFlavor.get? flavor).getD []).filter
      fun stored => stored.1 = maker).getLast?.map Prod.snd

theorem keepsLast_ofRows (rows : List Row) : KeepsLast rows (ofRows rows) := by
  refine
    { unique := (unique_ofRows rows).primary
      keys := (keyed_ofRows rows).primary
      last := ?_
      grouped := get?_primary_eq_getLast? rows }
  intro row hLast
  exact (unique_ofRows rows).primary.mem_entries_iff.mp (mem_entries_primary_iff.mpr hLast)

/-- **The indexes are views of the table.** Building an engine leaves one note,
with the number of rows and of the keys of each index.  The two grouped indexes
show every row of the table, and the primary index the last one of each
product. -/
theorem ofRows_shows_table (rows : List Row) :
    Engine.ofRows rows =
      ⟨.ok ⟨rows, ofRows rows⟩,
        [.indexesBuilt rows.length (ofRows rows).primary.keys.length
          (ofRows rows).byFlavor.keys.length (ofRows rows).byBaseFlavor.keys.length]⟩ ∧
    Groups rows Row.flavor (fun row => (row.maker, row.baseFlavor))
      (fun flavor stored => ⟨stored.1, flavor, stored.2⟩) (ofRows rows).byFlavor ∧
    Groups rows Row.baseFlavor (fun row => (row.maker, row.flavor))
      (fun baseFlavor stored => ⟨stored.1, stored.2, baseFlavor⟩) (ofRows rows).byBaseFlavor ∧
    KeepsLast rows (ofRows rows) := by
  refine ⟨?_, ?_, ?_, keepsLast_ofRows rows⟩
  · simp only [Index.keys, List.length_map]
    rfl
  · exact groups_of_getD (unique_ofRows rows).byFlavor (keyed_ofRows rows).byFlavor
      (getD_byFlavor_ofRows rows) fun _ => rfl
  · exact groups_of_getD (unique_ofRows rows).byBaseFlavor (keyed_ofRows rows).byBaseFlavor
      (getD_byBaseFlavor_ofRows rows) fun _ => rfl

end Indexes

end FlavorTable
