import FlavorTable.Csv.Write
import FlavorTable.Grid
import FlavorTable.Record
import FlavorTable.Row.Set

/-!
# Rows in any order

Answers are sets of rows, and a set can be listed in any order.  All that is
shown of rows (the sorted list, the records, the text and the grid) goes
through one arrangement of them, so the order in which they were handed over
leaves no trace, and nothing but the order is lost.

The arrangement is ascending: makers decide, then flavors, then base flavors,
and two texts compare by the code points of their characters, the first ones
that differ.  This is a total order in which different rows never tie.  So a
list has one ascending arrangement only, and it is told by its rows and how
often each of them occurs.

## Main results

* `precedes_iff` — the order of rows in terms of code points.
* `eq_sorted_iff` — sorting gives the one ascending arrangement.
* `records_eq_iff_perm` — the records tell the rows and their repetitions.
* `rendering_forgets_order_only` — what rendering depends on.
-/

namespace FlavorTable

/-! ## The order of texts -/

namespace Text

/-- The code points of the characters of a text. -/
def codePoints (s : String) : List Nat := s.toList.map Char.toNat

theorem map_toNat_lt_iff {s t : List Char} : s.map Char.toNat < t.map Char.toNat ↔ s < t := by
  induction s generalizing t with
  | nil => cases t <;> simp
  | cons c s ih =>
      cases t with
      | nil => simp
      | cons d t =>
          have hHead : c.toNat < d.toNat ↔ c < d := Iff.rfl
          rw [List.map_cons, List.map_cons, List.cons_lt_cons_iff, List.cons_lt_cons_iff, ih,
            hHead, Char.toNat_inj]

/-- Texts compare by their code points, the first ones that differ. -/
theorem compare_eq_lt_iff {s t : String} : compare s t = .lt ↔ codePoints s < codePoints t := by
  have hLess : compare s t = .lt ↔ s.toList < t.toList := compareOfLessAndEq_eq_lt
  rw [hLess, codePoints, codePoints, map_toNat_lt_iff]

end Text

/-! ## The order of rows -/

namespace Row

open FlavorTable.Text

/-- Makers decide, then flavors, then base flavors, each by code points. -/
def InOrder (a b : Row) : Prop :=
  codePoints a.maker < codePoints b.maker ∨ a.maker = b.maker ∧
    (codePoints a.flavor < codePoints b.flavor ∨ a.flavor = b.flavor ∧
      (codePoints a.baseFlavor < codePoints b.baseFlavor ∨ a.baseFlavor = b.baseFlavor))

/-- The first field decides, and the others do where it is the same. -/
theorem isLE_compare_cons_iff {s t : String} {rest others : List String} :
    (compare (s :: rest) (t :: others)).isLE = true ↔
      codePoints s < codePoints t ∨ s = t ∧ (compare rest others).isLE = true := by
  rw [List.compare_cons_cons, ← compare_eq_lt_iff]
  cases hCompare : compare s t with
  | lt => simp
  | eq =>
      have hSame : s = t := Std.LawfulEqCmp.eq_of_compare hCompare
      simp [hSame]
  | gt =>
      have hApart : s ≠ t := by
        rintro rfl
        have hSame : compare s s = .eq := Std.ReflCmp.compare_self
        rw [hSame] at hCompare
        cases hCompare
      simp [hApart]

theorem precedes_iff {a b : Row} : a.precedes b = true ↔ InOrder a b := by
  have hEnd : (compare ([] : List String) []).isLE = true := rfl
  rw [precedes, compare_eq, fields, fields, isLE_compare_cons_iff, isLE_compare_cons_iff,
    isLE_compare_cons_iff, hEnd, InOrder]
  simp

/-! ## The ascending arrangement -/

variable {a b rows ordered : List Row}

/-- Sorting gives the one arrangement that is ascending. -/
theorem eq_sorted_iff :
    ordered = sorted rows ↔ ordered.Perm rows ∧ ordered.Pairwise InOrder := by
  have hAscending : ordered.Pairwise InOrder ↔
      ordered.Pairwise fun x y => x.precedes y = true := by
    simp only [precedes_iff]
  rw [hAscending]
  constructor
  · rintro rfl
    exact ⟨sorted_perm rows, pairwise_sorted rows⟩
  · rintro ⟨hPerm, hOrdered⟩
    exact eq_of_ascending (hPerm.trans (sorted_perm rows).symm) hOrdered (pairwise_sorted rows)

theorem sorted_sorted (rows : List Row) : sorted (sorted rows) = sorted rows :=
  sorted_eq_of_perm (sorted_perm rows)

/-- However a set is listed, its rows are sorted into the order in which it holds them. -/
theorem sorted_of_perm_set {set : RowSet} (h : rows.Perm set.rows) : sorted rows = set.rows := by
  have hAscending : set.rows.Pairwise fun x y => x.precedes y = true :=
    set.ascending.imp fun hLess => by rw [precedes, hLess]; rfl
  exact eq_of_ascending ((sorted_perm rows).trans h) (pairwise_sorted rows) hAscending

theorem sorted_eq_iff_perm : sorted a = sorted b ↔ a.Perm b := by
  refine ⟨fun hSorted => ?_, sorted_eq_of_perm⟩
  exact (sorted_perm a).symm.trans (hSorted ▸ sorted_perm b)

theorem records_eq_iff_perm : records a = records b ↔ a.Perm b := by
  rw [← sorted_eq_iff_perm, records, records]
  exact List.map_inj_right fun _ _ => record_injective

/-! ## Rendering -/

/-- Nothing that is shown of the rows tells the two lists apart. -/
structure RenderAlike (a b : List Row) : Prop where
  sorted : sorted a = sorted b
  records : records a = records b
  text : ∀ delimiter, Csv.write a delimiter = Csv.write b delimiter
  grid : ∀ limit, Grid.write a limit = Grid.write b limit

theorem renderAlike_of_perm (h : a.Perm b) : RenderAlike a b :=
  { sorted := sorted_eq_of_perm h
    records := records_eq_of_perm h
    text := Csv.write_eq_of_perm h
    grid := Grid.write_eq_of_perm h }

/-- **Rendering forgets the order of rows and nothing else.** Lists that are
rearrangements of each other are shown alike, whatever the delimiter and the
limit, and their records are equal for no other lists.  So all listings of a
set are shown like the set.  Sorted rows are the rows in ascending order, by
maker, flavor and base flavor and by code points, and sorting them again
changes nothing. -/
theorem rendering_forgets_order_only (rows : List Row) :
    (∀ others, rows.Perm others → RenderAlike rows others) ∧
    (∀ others, Row.records rows = Row.records others → rows.Perm others) ∧
    (∀ set : RowSet, rows.Perm set.rows → sorted rows = set.rows ∧ RenderAlike rows set.rows) ∧
    (sorted rows).Perm rows ∧ (sorted rows).Pairwise InOrder ∧
    sorted (sorted rows) = sorted rows := by
  obtain ⟨hPerm, hOrdered⟩ := eq_sorted_iff.mp (rfl : sorted rows = sorted rows)
  refine ⟨fun _ => renderAlike_of_perm, fun _ => records_eq_iff_perm.mp, ?_, hPerm, hOrdered,
    sorted_sorted rows⟩
  intro set hSet
  exact ⟨sorted_of_perm_set hSet, renderAlike_of_perm hSet⟩

/-- By code points the last character of the first plane comes before those of the next plane,
whose first code unit is smaller. -/
example : sorted [⟨"\uffff", "", ""⟩, ⟨"😀", "", ""⟩, ⟨"\uffff", "", ""⟩] =
    [⟨"\uffff", "", ""⟩, ⟨"\uffff", "", ""⟩, ⟨"😀", "", ""⟩] := by
  decide

end Row

end FlavorTable
