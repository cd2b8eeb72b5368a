import FlavorTable.Row.Set
import Mathlib.Data.Set.Basic

/-!
# The lattice of row sets

A set of rows is determined by its members, so the map to the mathematical set
of its members is injective; it takes unions to unions and intersections to
intersections.  Hence the row sets form a distributive lattice, and the laws of
a lattice hold of them as equations between canonical lists.

Set algebra is also done on plain lists of rows, unsorted and with repetitions,
which are made sets first.  Making a set of the rows of a set gives that set
back.  So the laws hold on lists as well, also where a result is handed on as
the list of its rows.

## Main results

* the instance `DistribLattice RowSet`.
* `ofList_rows` — a set handed on as a list is the same set.
* `algebraLaws` — the laws of the set algebra on lists.
-/

namespace FlavorTable.RowSet

/-! ## The lattice -/

/-- The members of a set. -/
def members (s : RowSet) : Set Row := {row | row ∈ s}

theorem members_injective : Function.Injective members := by
  intro s t h
  exact ext fun row => Set.ext_iff.mp h row

theorem members_union (s t : RowSet) : (s ∪ t).members = s.members ∪ t.members :=
  Set.ext fun _ => mem_union

theorem members_inter (s t : RowSet) : (s ∩ t).members = s.members ∩ t.members :=
  Set.ext fun _ => mem_inter

instance : LE RowSet := ⟨fun s t => ∀ row ∈ s, row ∈ t⟩

instance : LT RowSet := ⟨fun s t => s ≤ t ∧ ¬ t ≤ s⟩

instance : Max RowSet := ⟨fun s t => s ∪ t⟩

instance : Min RowSet := ⟨fun s t => s ∩ t⟩

/-- Row sets are a lattice of sets, ordered by inclusion. -/
instance : DistribLattice RowSet :=
  members_injective.distribLattice members Iff.rfl Iff.rfl members_union members_inter

/-! ## Set algebra on lists -/

@[simp] theorem ofList_rows (s : RowSet) : ofList s.rows = s :=
  ext fun _ => mem_ofList

/-- The set of the rows in either list. -/
def united (left right : List Row) : RowSet := ofList left ∪ ofList right

/-- The set of the rows in both lists. -/
def shared (left right : List Row) : RowSet := ofList left ∩ ofList right

theorem mem_united {left right : List Row} {row : Row} :
    row ∈ united left right ↔ row ∈ left ∨ row ∈ right := by
  rw [united, mem_union, mem_ofList, mem_ofList]

theorem mem_shared {left right : List Row} {row : Row} :
    row ∈ shared left right ↔ row ∈ left ∧ row ∈ right := by
  rw [shared, mem_inter, mem_ofList, mem_ofList]

@[simp] theorem united_rows (s t : RowSet) : united s.rows t.rows = s ∪ t := by
  rw [united, ofList_rows, ofList_rows]

@[simp] theorem shared_rows (s t : RowSet) : shared s.rows t.rows = s ∩ t := by
  rw [shared, ofList_rows, ofList_rows]

/-- The laws of the set algebra on three lists of rows.  Where a result is used
again, it is handed on as the list of its rows. -/
structure AlgebraLaws (a b c : List Row) : Prop where
  mem_union : ∀ row, row ∈ (united a b).rows ↔ row ∈ a ∨ row ∈ b
  mem_inter : ∀ row, row ∈ (shared a b).rows ↔ row ∈ a ∧ row ∈ b
  nodup_union : (united a b).rows.Nodup
  nodup_inter : (shared a b).rows.Nodup
  union_comm : united a b = united b a
  inter_comm : shared a b = shared b a
  union_assoc : united (united a b).rows c = united a (united b c).rows
  inter_assoc : shared (shared a b).rows c = shared a (shared b c).rows
  union_self : united a a = ofList a
  inter_self : shared a a = ofList a
  union_inter_self : united a (shared a b).rows = ofList a
  inter_union_self : shared a (united a b).rows = ofList a
  inter_union_distrib : shared a (united b c).rows = united (shared a b).rows (shared a c).rows
  union_inter_distrib : united a (shared b c).rows = shared (united a b).rows (united a c).rows

/-- The set algebra on lists has the laws of a distributive lattice. -/
theorem algebraLaws (a b c : List Row) : AlgebraLaws a b c := by
  refine
    { mem_union := fun row => mem_united
      mem_inter := fun row => mem_shared
      nodup_union := nodup_rows _
      nodup_inter := nodup_rows _
      union_comm := sup_comm _ _
      inter_comm := inf_comm _ _
      union_self := sup_idem _
      inter_self := inf_idem _
      union_assoc := ?_
      inter_assoc := ?_
      union_inter_self := ?_
      inter_union_self := ?_
      inter_union_distrib := ?_
      union_inter_distrib := ?_ }
  -- In the other laws a result is handed on as a list and made a set again.
  all_goals simp only [united, shared, ofList_rows]
  · exact sup_assoc _ _ _
  · exact inf_assoc _ _ _
  · exact sup_inf_self
  · exact inf_sup_self
  · exact inf_sup_left _ _ _
  · exact sup_inf_left _ _ _

end FlavorTable.RowSet
