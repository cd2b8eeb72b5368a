import FlavorTable.Row.Order

/-!
# Rows as an aligned grid

A grid shows the header, a rule and the rows in ascending order. Every column
is as wide as its longest cell, the column name included, but no wider than a
given limit. A cell that is too long is cut and ends in an ellipsis, which
takes one of the positions; a shorter one is padded with spaces.

The limit is a signed number: a lower one than sixty-four bits can hold is
refused, a higher one is as good as none. At zero and below there is no room
for text: the rule loses its dashes and a cell is its ellipsis alone.

## Main results

* `length_cell` — in a column of positive width every cell has that width.
* `write_eq_ok_iff` — which limits are accepted.
* `write_eq_of_perm` — the grid does not depend on the order of the rows.
-/

namespace FlavorTable.Grid

/-- A text cut to a column's width, with an ellipsis in place of what was cut off. -/
def cut (width : Int) (s : String) : List Char :=
  if width < s.length then s.toList.take (width - 1).toNat ++ ['…'] else s.toList

/-- A text cut or padded to a column's width. -/
def cell (width : Int) (s : String) : String :=
  .ofList ((cut width s).rightpad width.toNat ' ')

theorem length_cut_le {width : Int} (h : 0 < width) (s : String) :
    (cut width s).length ≤ width.toNat := by
  have hLength : s.toList.length = s.length := String.length_toList
  unfold cut
  split
  · rw [List.length_append, List.length_take, List.length_singleton]
    omega
  · omega

/-- In a column of positive width every cell has that width. -/
theorem length_cell {width : Int} (h : 0 < width) (s : String) :
    (cell width s).length = width.toNat := by
  rw [cell, ← String.length_toList, String.toList_ofList, List.length_rightpad]
  have hCut := length_cut_le h s
  omega

/-- The length of the longest cell in each column, the header included. -/
def columnLengths (rows : List Row) : List Nat :=
  rows.foldl (fun lengths row => lengths.zipWith max (row.fields.map String.length))
    (Row.header.fields.map String.length)

/-- The widths of the columns, none beyond the limit. -/
def widths (rows : List Row) (limit : Int) : List Int :=
  (columnLengths rows).map fun (length : Nat) => min (length : Int) limit

def line (widths : List Int) (row : Row) : String :=
  " | ".intercalate (widths.zipWith cell row.fields)

/-- The dashes between header and rows. -/
def rule (widths : List Int) : String :=
  "-+-".intercalate (widths.map fun width => .ofList (List.replicate width.toNat '-'))

/-- The rows as a grid whose columns are at most `limit` wide. -/
def draw (rows : List Row) (limit : Int) : String :=
  let ordered := Row.sorted rows
  let columns := widths ordered limit
  "\n".intercalate (line columns Row.header :: rule columns :: ordered.map (line columns))

/-! ## Limits -/

/-- The limit that applies when none is given. -/
def defaultLimit : Int := 24

/-- The lowest limit, which is the lowest signed number of sixty-four bits. -/
def lowestLimit : Int := -9223372036854775808

inductive Fault where
  | limitTooLow
  deriving DecidableEq, Repr

def Fault.message : Fault → String
  | .limitTooLow => "Python int too large to convert to C ssize_t"

/-- The rows as a grid, for a limit that is not too low. -/
def write (rows : List Row) (limit : Int) : Except Fault String :=
  if limit < lowestLimit then .error .limitTooLow else .ok (draw rows limit)

/-- A grid is drawn for every limit from the lowest one on, and for no other. -/
theorem write_eq_ok_iff {rows : List Row} {limit : Int} {text : String} :
    write rows limit = .ok text ↔ lowestLimit ≤ limit ∧ text = draw rows limit := by
  unfold write
  split
  case isTrue hLow =>
    refine ⟨fun h => (nomatch h), fun h => ?_⟩
    exact absurd h.1 (Int.not_le.2 hLow)
  case isFalse hHigh =>
    refine ⟨fun h => ⟨Int.not_lt.1 hHigh, (Except.ok.inj h).symm⟩, fun h => ?_⟩
    rw [h.2]

theorem draw_eq_of_perm {a b : List Row} (h : a.Perm b) (limit : Int) :
    draw a limit = draw b limit := by
  rw [draw, draw, Row.sorted_eq_of_perm h]

/-- The grid does not depend on the order of the rows. -/
theorem write_eq_of_perm {a b : List Row} (h : a.Perm b) (limit : Int) :
    write a limit = write b limit := by
  rw [write, write, draw_eq_of_perm h]

end FlavorTable.Grid
