import FlavorTable.Row.Order

/-!
# Sets of rows

A `RowSet` keeps its rows strictly ascending, so it holds no row twice and
two sets with the same members are the same set. Seeks, scans and queries
answer with such sets, and whatever is written from one is already in order.

## Main results

* `ext` — sets with the same members are equal.
* `mem_ofList`, `mem_union`, `mem_inter` — what the constructions hold.
-/

namespace FlavorTable

/-- A finite set of rows, listed in strictly ascending order. -/
structure RowSet where
  rows : List Row
  ascending : rows.Pairwise fun a b => compare a b = .lt
  deriving DecidableEq

namespace RowSet

instance : Membership Row RowSet := ⟨fun set row => row ∈ set.rows⟩

@[simp] theorem mem_rows {row : Row} {set : RowSet} : row ∈ set.rows ↔ row ∈ set := Iff.rfl

instance (row : Row) (set : RowSet) : Decidable (row ∈ set) :=
  inferInstanceAs (Decidable (row ∈ set.rows))

def size (set : RowSet) : Nat := set.rows.length

/-- No row is in a set twice. -/
theorem nodup_rows (set : RowSet) : set.rows.Nodup :=
  set.ascending.imp fun hLt hEq => by simp [hEq, Std.ReflCmp.compare_self] at hLt

/-- Sets with the same members are equal. -/
@[ext] theorem ext {s t : RowSet} (h : ∀ row, row ∈ s ↔ row ∈ t) : s = t := by
  have hPerm : s.rows.Perm t.rows :=
    (List.perm_ext_iff_of_nodup s.nodup_rows t.nodup_rows).mpr h
  obtain ⟨left, hLeft⟩ := s
  obtain ⟨right, hRight⟩ := t
  have hEq : left = right := hPerm.eq_of_pairwise
    (fun a b _ _ hab hba => by
      have hGt := Std.OrientedCmp.gt_of_lt hab
      rw [hGt] at hba
      cases hba) hLeft hRight
  subst hEq
  rfl

/-! ## Building sets -/

/-- A row put at its place among ascending rows, unless it is there already. -/
def add (row : Row) : List Row → List Row
  | [] => [row]
  | first :: rest =>
      match compare row first with
      | .lt => row :: first :: rest
      | .eq => first :: rest
      | .gt => first :: add row rest

theorem mem_add {a row : Row} {rows : List Row} :
    a ∈ add row rows ↔ a = row ∨ a ∈ rows := by
  induction rows with
  | nil => simp [add]
  | cons first rest ih =>
      unfold add
      split
      case h_1 => simp
      case h_2 hEq =>
        have hRow : row = first := Std.LawfulEqCmp.eq_of_compare hEq
        subst hRow
        simp
      case h_3 =>
        rw [List.mem_cons, List.mem_cons, ih]
        exact or_left_comm

theorem pairwise_add {row : Row} {rows : List Row}
    (h : rows.Pairwise fun a b => compare a b = .lt) :
    (add row rows).Pairwise fun a b => compare a b = .lt := by
  induction rows with
  | nil => simp [add]
  | cons first rest ih =>
      obtain ⟨hFirst, hRest⟩ := List.pairwise_cons.mp h
      unfold add
      split
      case h_1 hLt =>
        refine List.pairwise_cons.mpr ⟨fun b hb => ?_, h⟩
        rcases List.mem_cons.mp hb with rfl | hb
        · exact hLt
        · exact Std.TransCmp.lt_trans hLt (hFirst b hb)
      case h_2 => exact h
      case h_3 hGt =>
        refine List.pairwise_cons.mpr ⟨fun b hb => ?_, ih hRest⟩
        rcases mem_add.mp hb with rfl | hb
        · exact Std.OrientedCmp.lt_of_gt hGt
        · exact hFirst b hb

def empty : RowSet := ⟨[], .nil⟩

/-- The set with one row more. -/
def insert (row : Row) (set : RowSet) : RowSet :=
  ⟨add row set.rows, pairwise_add set.ascending⟩

/-- The set of the rows in a list. -/
def ofList (rows : List Row) : RowSet := rows.foldr insert empty

@[simp] theorem not_mem_empty (row : Row) : row ∉ empty := List.not_mem_nil

@[simp] theorem mem_insert {a row : Row} {set : RowSet} :
    a ∈ insert row set ↔ a = row ∨ a ∈ set :=
  mem_add

@[simp] theorem mem_ofList {row : Row} {rows : List Row} : row ∈ ofList rows ↔ row ∈ rows := by
  induction rows with
  | nil => simp [ofList]
  | cons first rest ih =>
      rw [List.mem_cons, ← ih]
      exact mem_insert

/-! ## Union and intersection -/

instance : Union RowSet := ⟨fun s t => s.rows.foldr insert t⟩

instance : Inter RowSet :=
  ⟨fun s t => ⟨s.rows.filter fun row => row ∈ t, s.ascending.filter _⟩⟩

@[simp] theorem mem_union {row : Row} {s t : RowSet} : row ∈ s ∪ t ↔ row ∈ s ∨ row ∈ t := by
  have hFold : ∀ rows : List Row, row ∈ rows.foldr insert t ↔ row ∈ rows ∨ row ∈ t := by
    intro rows
    induction rows with
    | nil => simp
    | cons first rest ih => simp [ih, or_assoc]
  exact hFold s.rows

@[simp] theorem mem_inter {row : Row} {s t : RowSet} : row ∈ s ∩ t ↔ row ∈ s ∧ row ∈ t := by
  show row ∈ s.rows.filter (fun row => row ∈ t) ↔ _
  simp

end RowSet

end FlavorTable
