import FlavorTable.Row.Basic

/-!
# The order of rows

Rows are ordered by maker, then flavor, then base flavor, and texts by their
code points. No two different rows tie, so a list of rows has exactly one
sorted arrangement: whatever is written from sorted rows does not depend on
the order in which they were handed over.

## Main results

* `sorted_perm` — sorting only rearranges.
* `pairwise_sorted` — the result is ascending.
* `eq_of_ascending` — there is one ascending arrangement only.
* `sorted_eq_of_perm` — rearranged rows sort to the same list.
-/

namespace FlavorTable.Row

/-- Rows compare field by field in column order. -/
instance : Ord Row := ⟨fun a b => compare a.fields b.fields⟩

theorem compare_eq (a b : Row) : compare a b = compare a.fields b.fields := rfl

instance : Std.TransOrd Row where
  eq_swap {a b} := @Std.OrientedCmp.eq_swap (List String) compare _ a.fields b.fields
  isLE_trans {a b c} :=
    @Std.TransCmp.isLE_trans (List String) compare _ a.fields b.fields c.fields

instance : Std.LawfulEqOrd Row where
  compare_self {a} := @Std.ReflCmp.compare_self (List String) compare _ a.fields
  eq_of_compare {a b} h :=
    fields_injective (@Std.LawfulEqCmp.eq_of_compare (List String) compare _ a.fields b.fields h)

/-- Whether row `a` may stand before row `b`. -/
def precedes (a b : Row) : Bool := (compare a b).isLE

theorem precedes_trans (a b c : Row) (hab : a.precedes b = true) (hbc : b.precedes c = true) :
    a.precedes c = true :=
  Std.TransCmp.isLE_trans hab hbc

theorem precedes_total (a b : Row) : (a.precedes b || b.precedes a) = true := by
  have hSwap : compare a b = (compare b a).swap := Std.OrientedCmp.eq_swap
  unfold precedes
  rw [hSwap]
  cases compare b a <;> rfl

theorem precedes_antisymm {a b : Row} (hab : a.precedes b = true) (hba : b.precedes a = true) :
    a = b := by
  apply @Std.LawfulEqCmp.eq_of_compare Row compare _
  have hSwap : compare a b = (compare b a).swap := Std.OrientedCmp.eq_swap
  unfold precedes at hab hba
  rw [hSwap] at hab ⊢
  cases hCase : compare b a <;> simp_all

/-! ## Sorting -/

/-- A row put in front of the first row that it precedes. -/
def place (row : Row) : List Row → List Row
  | [] => [row]
  | first :: rest =>
      if row.precedes first then row :: first :: rest else first :: place row rest

/-- The rows in ascending order, repetitions kept. -/
def sorted (rows : List Row) : List Row := rows.foldr place []

theorem place_perm (row : Row) (rows : List Row) : (place row rows).Perm (row :: rows) := by
  induction rows with
  | nil => exact .refl _
  | cons first rest ih =>
      unfold place
      split
      · exact .refl _
      · exact (ih.cons first).trans (.swap row first rest)

/-- Sorting only rearranges. -/
theorem sorted_perm (rows : List Row) : (sorted rows).Perm rows := by
  induction rows with
  | nil => exact .refl _
  | cons row rest ih => exact (place_perm row (sorted rest)).trans (ih.cons row)

theorem pairwise_place {row : Row} {rows : List Row}
    (h : rows.Pairwise fun a b => a.precedes b = true) :
    (place row rows).Pairwise fun a b => a.precedes b = true := by
  induction rows with
  | nil => simp [place]
  | cons first rest ih =>
      obtain ⟨hFirst, hRest⟩ := List.pairwise_cons.mp h
      unfold place
      split
      case isTrue hRow =>
        refine List.pairwise_cons.mpr ⟨fun b hb => ?_, h⟩
        rcases List.mem_cons.mp hb with rfl | hb
        · exact hRow
        · exact precedes_trans row first b hRow (hFirst b hb)
      case isFalse hRow =>
        have hTotal : first.precedes row = true := by
          have hEither := precedes_total row first
          simpa [hRow] using hEither
        refine List.pairwise_cons.mpr ⟨fun b hb => ?_, ih hRest⟩
        rcases List.mem_cons.mp ((place_perm row rest).mem_iff.mp hb) with rfl | hb
        · exact hTotal
        · exact hFirst b hb

/-- The result of sorting is ascending. -/
theorem pairwise_sorted (rows : List Row) :
    (sorted rows).Pairwise fun a b => a.precedes b = true := by
  induction rows with
  | nil => exact .nil
  | cons row rest ih => exact pairwise_place ih

/-- No list has two ascending arrangements. -/
theorem eq_of_ascending {a b : List Row} (hPerm : a.Perm b)
    (ha : a.Pairwise fun x y => x.precedes y = true)
    (hb : b.Pairwise fun x y => x.precedes y = true) : a = b :=
  hPerm.eq_of_pairwise (fun _ _ _ _ hxy hyx => precedes_antisymm hxy hyx) ha hb

/-- Rearranged rows sort to the same list. -/
theorem sorted_eq_of_perm {a b : List Row} (h : a.Perm b) : sorted a = sorted b :=
  eq_of_ascending ((sorted_perm a).trans (h.trans (sorted_perm b).symm)) (pairwise_sorted a)
    (pairwise_sorted b)

end FlavorTable.Row
