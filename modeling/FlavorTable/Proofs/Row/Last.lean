import FlavorTable.Row.Basic

/-!
# The last row of a product

A table may hold several rows for one pair of maker and flavor.  A unique
index keeps the last of them only, so what a scan can see is exactly the rows
that no later row of the same product replaces.

In a *consistent* table the rows of a product are equal, and every row is then
as good as the last one.

## Main results

* `isLast_iff_find?` — the last row is the first one from the end.
* `exists_isLast`, `IsLast.unique` — each product that occurs has one.
* `Consistent.isLast` — in a consistent table every row is the last of its
  product.
-/

namespace FlavorTable.Row

/-- The table ends, as far as the product of `row` goes, with `row`: it occurs
and no later row has its product. -/
def IsLast (rows : List Row) (row : Row) : Prop :=
  ∃ before after, rows = before ++ row :: after ∧ ∀ later ∈ after, later.product ≠ row.product

/-- No two rows have the same product and different base flavors. -/
def Consistent (rows : List Row) : Prop :=
  ∀ a ∈ rows, ∀ b ∈ rows, a.product = b.product → a.baseFlavor = b.baseFlavor

instance (rows : List Row) : Decidable (Consistent rows) :=
  inferInstanceAs (Decidable (∀ a ∈ rows, ∀ b ∈ rows, a.product = b.product →
    a.baseFlavor = b.baseFlavor))

theorem eq_of_product {a b : Row} (hProduct : a.product = b.product)
    (hBase : a.baseFlavor = b.baseFlavor) : a = b := by
  obtain ⟨maker, flavor, baseFlavor⟩ := a
  obtain ⟨maker', flavor', baseFlavor'⟩ := b
  simp only [product, Prod.mk.injEq] at hProduct hBase
  simp [hProduct, hBase]

theorem isLast_iff_find? {rows : List Row} {row : Row} :
    IsLast rows row ↔ (rows.reverse.find? fun other => other.product = row.product) = some row := by
  rw [List.find?_eq_some_iff_append]
  constructor
  · intro h
    obtain ⟨before, after, rfl, hAfter⟩ := h
    refine ⟨by simp, after.reverse, before.reverse, by simp, ?_⟩
    intro later hLater
    simpa using hAfter later (List.mem_reverse.mp hLater)
  · intro h
    obtain ⟨-, after, before, hRows, hAfter⟩ := h
    have hSplit : rows = before.reverse ++ row :: after.reverse := by
      rw [← List.reverse_reverse rows, hRows]
      simp
    refine ⟨before.reverse, after.reverse, hSplit, ?_⟩
    intro later hLater
    simpa using hAfter later (List.mem_reverse.mp hLater)

instance (rows : List Row) (row : Row) : Decidable (IsLast rows row) :=
  decidable_of_iff _ isLast_iff_find?.symm

theorem IsLast.mem {rows : List Row} {row : Row} (h : IsLast rows row) : row ∈ rows := by
  obtain ⟨before, after, rfl, -⟩ := h
  simp

theorem IsLast.unique {rows : List Row} {a b : Row} (ha : IsLast rows a) (hb : IsLast rows b)
    (hProduct : a.product = b.product) : a = b := by
  rw [isLast_iff_find?] at ha hb
  rw [hProduct, hb] at ha
  exact (Option.some.inj ha).symm

/-- Each product that occurs has a last row. -/
theorem exists_isLast {rows : List Row} {row : Row} (h : row ∈ rows) :
    ∃ last, IsLast rows last ∧ last.product = row.product := by
  have hSome : (rows.reverse.find? fun other => other.product = row.product).isSome := by
    rw [List.find?_isSome]
    exact ⟨row, List.mem_reverse.mpr h, by simp⟩
  obtain ⟨last, hFind⟩ := Option.isSome_iff_exists.mp hSome
  have hProduct : last.product = row.product := by
    simpa using List.find?_some hFind
  refine ⟨last, ?_, hProduct⟩
  rw [isLast_iff_find?, hProduct]
  exact hFind

/-- A row that is alone with its product is the last of it. -/
theorem isLast_of_alone {rows : List Row} {row : Row} (h : row ∈ rows)
    (hAlone : ∀ other ∈ rows, other.product = row.product → other = row) : IsLast rows row := by
  obtain ⟨last, hLast, hProduct⟩ := exists_isLast h
  have hEq : last = row := hAlone last hLast.mem hProduct
  exact hEq ▸ hLast

theorem Consistent.isLast {rows : List Row} (h : Consistent rows) {row : Row} (hMem : row ∈ rows) :
    IsLast rows row := by
  apply isLast_of_alone hMem
  intro other hOther hProduct
  exact eq_of_product hProduct (h other hOther row hMem hProduct)

end FlavorTable.Row
