import FlavorTable.Index
import FlavorTable.Row.Basic

/-!
# The three indexes of a table

A table is searched through three indexes, all filled in one pass over its
rows. The primary index is unique: it has one base flavor for each product,
that is, for each pair of maker and flavor, and a later row overwrites an
earlier one. The other two group the rows by flavor and by base flavor and
keep every row, in order and with repetitions.

So a row that was overwritten in the primary index can still be found by its
flavor.

## Main results

* `get?_primary_ofRows` — the last row of a product decides its base flavor.
* `getD_byFlavor_ofRows`, `getD_byBaseFlavor_ofRows` — a group lists the rows
  of its key, in order.
-/

namespace FlavorTable

structure Indexes where
  /-- The base flavor of each pair of maker and flavor. -/
  primary : Index (String × String) String
  /-- The makers of each flavor, each with the base flavor. -/
  byFlavor : Index String (List (String × String))
  /-- The makers of each base flavor, each with the flavor. -/
  byBaseFlavor : Index String (List (String × String))
  deriving DecidableEq, Repr

namespace Indexes

def empty : Indexes := ⟨.empty, .empty, .empty⟩

def add (indexes : Indexes) (row : Row) : Indexes where
  primary := indexes.primary.put row.product row.baseFlavor
  byFlavor := indexes.byFlavor.push row.flavor (row.maker, row.baseFlavor)
  byBaseFlavor := indexes.byBaseFlavor.push row.baseFlavor (row.maker, row.flavor)

def ofRows (rows : List Row) : Indexes := rows.foldl add empty

/-- The last row of a product decides its base flavor. -/
theorem get?_primary_add (indexes : Indexes) (row : Row) (product : String × String) :
    (indexes.add row).primary.get? product =
      if product = row.product then some row.baseFlavor else indexes.primary.get? product := by
  by_cases h : product = row.product
  · subst h
    simp [add, Index.put]
  · simp [add, Index.put, h, Index.get?_alter_of_ne _ _ h]

/-- A row joins the group of its flavor. -/
theorem get?_byFlavor_add (indexes : Indexes) (row : Row) (flavor : String) :
    (indexes.add row).byFlavor.get? flavor =
      if flavor = row.flavor then
        some ((indexes.byFlavor.get? flavor).getD [] ++ [(row.maker, row.baseFlavor)])
      else indexes.byFlavor.get? flavor := by
  by_cases h : flavor = row.flavor
  · subst h
    simp [add, Index.push]
  · simp [add, Index.push, h, Index.get?_alter_of_ne _ _ h]

/-- A row joins the group of its base flavor. -/
theorem get?_byBaseFlavor_add (indexes : Indexes) (row : Row) (baseFlavor : String) :
    (indexes.add row).byBaseFlavor.get? baseFlavor =
      if baseFlavor = row.baseFlavor then
        some ((indexes.byBaseFlavor.get? baseFlavor).getD [] ++ [(row.maker, row.flavor)])
      else indexes.byBaseFlavor.get? baseFlavor := by
  by_cases h : baseFlavor = row.baseFlavor
  · subst h
    simp [add, Index.push]
  · simp [add, Index.push, h, Index.get?_alter_of_ne _ _ h]

/-! ## What the indexes of a table hold -/

theorem get?_primary_foldl (rows : List Row) (indexes : Indexes) (product : String × String) :
    (rows.foldl add indexes).primary.get? product =
      ((rows.reverse.find? fun row => row.product = product).map Row.baseFlavor).or
        (indexes.primary.get? product) := by
  induction rows generalizing indexes with
  | nil => simp
  | cons row rest ih =>
      rw [List.foldl_cons, ih, get?_primary_add, List.reverse_cons, List.find?_append]
      by_cases h : product = row.product
      · cases rest.reverse.find? fun other => decide (other.product = product) <;> simp [h]
      · have hRow : ¬row.product = product := fun hEq => h hEq.symm
        cases rest.reverse.find? fun other => decide (other.product = product) <;> simp [h, hRow]

/-- The primary index has the base flavor of the last row of each product. -/
theorem get?_primary_ofRows (rows : List Row) (product : String × String) :
    (ofRows rows).primary.get? product =
      (rows.reverse.find? fun row => row.product = product).map Row.baseFlavor := by
  rw [ofRows, get?_primary_foldl]
  simp [empty]

theorem getD_byFlavor_foldl (rows : List Row) (indexes : Indexes) (flavor : String) :
    ((rows.foldl add indexes).byFlavor.get? flavor).getD [] =
      (indexes.byFlavor.get? flavor).getD [] ++
        (rows.filter fun row => row.flavor = flavor).map fun row =>
          (row.maker, row.baseFlavor) := by
  induction rows generalizing indexes with
  | nil => simp
  | cons row rest ih =>
      rw [List.foldl_cons, ih, get?_byFlavor_add]
      by_cases h : flavor = row.flavor
      · simp [h]
      · have hRow : ¬row.flavor = flavor := fun hEq => h hEq.symm
        simp [h, hRow]

/-- The group of a flavor lists its rows in order. -/
theorem getD_byFlavor_ofRows (rows : List Row) (flavor : String) :
    ((ofRows rows).byFlavor.get? flavor).getD [] =
      (rows.filter fun row => row.flavor = flavor).map fun row => (row.maker, row.baseFlavor) := by
  rw [ofRows, getD_byFlavor_foldl]
  simp [empty]

theorem getD_byBaseFlavor_foldl (rows : List Row) (indexes : Indexes) (baseFlavor : String) :
    ((rows.foldl add indexes).byBaseFlavor.get? baseFlavor).getD [] =
      (indexes.byBaseFlavor.get? baseFlavor).getD [] ++
        (rows.filter fun row => row.baseFlavor = baseFlavor).map
          fun row => (row.maker, row.flavor) := by
  induction rows generalizing indexes with
  | nil => simp
  | cons row rest ih =>
      rw [List.foldl_cons, ih, get?_byBaseFlavor_add]
      by_cases h : baseFlavor = row.baseFlavor
      · simp [h]
      · have hRow : ¬row.baseFlavor = baseFlavor := fun hEq => h hEq.symm
        simp [h, hRow]

/-- The group of a base flavor lists its rows in order. -/
theorem getD_byBaseFlavor_ofRows (rows : List Row) (baseFlavor : String) :
    ((ofRows rows).byBaseFlavor.get? baseFlavor).getD [] =
      (rows.filter fun row => row.baseFlavor = baseFlavor).map
        fun row => (row.maker, row.flavor) := by
  rw [ofRows, getD_byBaseFlavor_foldl]
  simp [empty]

end Indexes

end FlavorTable
