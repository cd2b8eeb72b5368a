import FlavorTable.Grid

/-!
# The layout of a grid

A grid is the header line, the rule and one line a row, in ascending order.
Each line has three columns with three characters between them.  A column is as
wide as its longest cell, the column name included, or as the limit, if that is
less.

No cell is longer than its column would be without the limit.  So a cell is cut
exactly when it is longer than the limit, and then its column is as wide as the
limit: what is shown of a cell does not depend on other cells, up to padding.

With a positive limit what is shown of a cell fills its column.  Every line is
then equally long, and a column has the same positions in all of them.  With a
limit of zero and below, padding and dashes are gone, and a cell is its
ellipsis.

## Main results

* `longest_le_iff` — the longest cell of a column as a bound.
* `toList_cell` — a cell is cut at the limit and nowhere before it.
* `drop_take_joined` — a column stands at its positions.
* `splitOn_draw` — the lines of a grid.
* `write_lays_out` — the layout for every limit that is accepted.
-/

namespace FlavorTable.Grid

/-! ## Columns -/

/-- The columns of a grid, from left to right. -/
inductive Column where
  | maker
  | flavor
  | baseFlavor

/-- The cell of a row in a column. -/
def Column.cell : Column → Row → String
  | .maker, row => row.maker
  | .flavor, row => row.flavor
  | .baseFlavor, row => row.baseFlavor

theorem Column.cell_mem_fields (column : Column) (row : Row) : column.cell row ∈ row.fields := by
  cases column <;> simp [Column.cell, Row.fields]

/-- The length of the longest cell of a column, the column name included. -/
def longest (rows : List Row) (column : Column) : Nat :=
  rows.foldl (fun length row => max length (column.cell row).length)
    (column.cell Row.header).length

/-- The width of a column under a limit. -/
def width (rows : List Row) (limit : Int) (column : Column) : Int :=
  min (longest rows column : Int) limit

/-- The number of positions that a column takes on a line. -/
def places (rows : List Row) (limit : Int) (column : Column) : Nat :=
  (width rows limit column).toNat

/-- A bound on the longest cell is a bound on every cell. -/
theorem longest_le_iff {rows : List Row} {column : Column} {n : Nat} :
    longest rows column ≤ n ↔ ∀ row ∈ Row.header :: rows, (column.cell row).length ≤ n := by
  have hFold : ∀ first : Nat,
      rows.foldl (fun length row => max length (column.cell row).length) first ≤ n ↔
        first ≤ n ∧ ∀ row ∈ rows, (column.cell row).length ≤ n := by
    induction rows with
    | nil => simp
    | cons row rest ih =>
        intro first
        rw [List.foldl_cons, ih, Nat.max_le, List.forall_mem_cons, and_assoc]
  rw [longest, hFold, List.forall_mem_cons]

theorem length_cell_le_longest {rows : List Row} {row : Row} (h : row ∈ Row.header :: rows)
    (column : Column) : (column.cell row).length ≤ longest rows column :=
  longest_le_iff.mp (Nat.le_refl _) row h

theorem longest_sorted (rows : List Row) (column : Column) :
    longest (Row.sorted rows) column = longest rows column := by
  have hPerm := (Row.sorted_perm rows).cons Row.header
  apply Nat.le_antisymm
  · exact longest_le_iff.mpr fun row hRow => length_cell_le_longest (hPerm.mem_iff.mp hRow) column
  · exact longest_le_iff.mpr fun row hRow => length_cell_le_longest (hPerm.mem_iff.mpr hRow) column

/-- The lengths that are computed for all columns at once are those of each column. -/
theorem columnLengths_eq (rows : List Row) :
    columnLengths rows = [longest rows .maker, longest rows .flavor, longest rows .baseFlavor] := by
  have hFold : ∀ a b c : Nat,
      rows.foldl (fun lengths row => lengths.zipWith max (row.fields.map String.length)) [a, b, c] =
        [rows.foldl (fun length row => max length (Column.maker.cell row).length) a,
          rows.foldl (fun length row => max length (Column.flavor.cell row).length) b,
          rows.foldl (fun length row => max length (Column.baseFlavor.cell row).length) c] := by
    induction rows with
    | nil =>
        intro a b c
        rfl
    | cons row rest ih =>
        intro a b c
        exact ih _ _ _
  exact hFold _ _ _

theorem widths_sorted (rows : List Row) (limit : Int) :
    widths (Row.sorted rows) limit =
      [width rows limit .maker, width rows limit .flavor, width rows limit .baseFlavor] := by
  rw [widths, columnLengths_eq, longest_sorted, longest_sorted, longest_sorted]
  rfl

theorem length_header_pos (column : Column) : 0 < (column.cell Row.header).length := by
  cases column <;> decide

/-- The column name alone gives a column a positive width. -/
theorem width_pos (rows : List Row) {limit : Int} (h : 1 ≤ limit) (column : Column) :
    0 < width rows limit column := by
  have hName := length_header_pos column
  have hLongest : (column.cell Row.header).length ≤ longest rows column :=
    length_cell_le_longest List.mem_cons_self column
  unfold width
  omega

theorem places_eq_zero (rows : List Row) {limit : Int} (h : limit ≤ 0) (column : Column) :
    places rows limit column = 0 := by
  unfold places width
  omega

/-! ## Cells -/

/-- What is shown of a text in a column of so many places: all of it and padding, or its
beginning and an ellipsis. -/
def shown (limit : Int) (places : Nat) (s : String) : List Char :=
  if (s.length : Int) ≤ limit then s.toList ++ List.replicate (places - s.length) ' '
  else s.toList.take (limit - 1).toNat ++ ['…']

/-- A cell is cut at the limit and nowhere before it. -/
theorem toList_cell {rows : List Row} {column : Column} {s : String}
    (h : s.length ≤ longest rows column) (limit : Int) :
    (cell (width rows limit column) s).toList = shown limit (places rows limit column) s := by
  have hLength : s.toList.length = s.length := String.length_toList
  rw [cell, String.toList_ofList, List.rightpad, shown, places]
  by_cases hFits : (s.length : Int) ≤ limit
  · have hWhole : ¬width rows limit column < s.length := by
      unfold width
      omega
    rw [cut, if_neg hWhole, if_pos hFits, hLength]
  · have hWidth : width rows limit column = limit := by
      unfold width
      omega
    have hCut : limit < s.length := by omega
    have hFull : limit.toNat - (s.toList.take (limit - 1).toNat ++ ['…']).length = 0 := by
      rw [List.length_append, List.length_take, List.length_singleton]
      omega
    rw [hWidth, cut, if_pos hCut, if_neg hFits, hFull, List.replicate_zero, List.append_nil]

/-- With a positive limit what is shown of a cell fills the column. -/
theorem length_shown {rows : List Row} {limit : Int} (hLimit : 1 ≤ limit) {row : Row}
    (hRow : row ∈ Row.header :: rows) (column : Column) :
    (shown limit (places rows limit column) (column.cell row)).length =
      places rows limit column := by
  rw [← toList_cell (length_cell_le_longest hRow column), String.length_toList,
    length_cell (width_pos rows hLimit column), places]

/-- How a text is shown under a positive limit. -/
structure ShowsCell (limit : Int) (places : Nat) (s : String) (part : List Char) : Prop where
  /-- It is shown whole and padded if it is no longer than the limit, and only then. -/
  whole : part = s.toList ++ List.replicate (places - s.length) ' ' ↔ (s.length : Int) ≤ limit
  /-- Otherwise one character less than the limit is shown, and an ellipsis. -/
  cut : limit < s.length → part = s.toList.take (limit - 1).toNat ++ ['…']

theorem showsCell_shown {limit : Int} (h : 1 ≤ limit) (places : Nat) (s : String) :
    ShowsCell limit places s (shown limit places s) := by
  have hLength : s.toList.length = s.length := String.length_toList
  refine
    { whole := ⟨fun hWhole => ?_, fun hFits => if_pos hFits⟩
      cut := fun hCut => if_neg (Int.not_le.mpr hCut) }
  -- A text that was cut is as long as the limit, too short for the whole text.
  refine Classical.byContradiction fun hCut => ?_
  rw [shown, if_neg hCut] at hWhole
  have hLengths := congrArg List.length hWhole
  rw [List.length_append, List.length_append, List.length_take, List.length_singleton] at hLengths
  omega

/-- Without room for a character a text is its ellipsis, unless there is nothing to cut. -/
theorem shown_of_nonpos {limit : Int} (h : limit ≤ 0) (s : String) :
    shown limit 0 s = if limit = 0 ∧ s = "" then [] else ['…'] := by
  have hEmpty : s = "" ↔ s.length = 0 := String.length_eq_zero_iff.symm
  unfold shown
  by_cases hFits : (s.length : Int) ≤ limit
  · have hNothing : limit = 0 ∧ s = "" := by
      rw [hEmpty]
      omega
    rw [if_pos hFits, if_pos hNothing, hNothing.2]
    rfl
  · have hSomething : ¬(limit = 0 ∧ s = "") := by
      rw [hEmpty]
      omega
    have hNone : (limit - 1).toNat = 0 := by omega
    rw [if_neg hFits, if_neg hSomething, hNone]
    rfl

/-! ## Lines -/

/-- The parts of a line, one for each column, with a separator between them. -/
def joined (separator : List Char) (parts : Column → List Char) : List Char :=
  parts .maker ++ (separator ++ (parts .flavor ++ (separator ++ parts .baseFlavor)))

/-- Where a column begins, when three characters stand between the columns. -/
def start (places : Column → Nat) : Column → Nat
  | .maker => 0
  | .flavor => places .maker + 3
  | .baseFlavor => places .maker + 3 + places .flavor + 3

section Joined

variable {separator : List Char} {parts : Column → List Char}

theorem length_joined (h : separator.length = 3) :
    (joined separator parts).length =
      (parts .maker).length + (parts .flavor).length + (parts .baseFlavor).length + 6 := by
  simp only [joined, List.length_append, h]
  omega

/-- A column stands at its positions. -/
theorem drop_take_joined (h : separator.length = 3) {places : Column → Nat}
    (hPlaces : ∀ column, (parts column).length = places column) (column : Column) :
    ((joined separator parts).drop (start places column)).take (places column) = parts column := by
  have hMaker : (parts .maker ++ separator).length = start places .flavor := by
    rw [List.length_append, hPlaces, h, start]
  have hFlavor : (parts .maker ++ separator ++ parts .flavor ++ separator).length =
      start places .baseFlavor := by
    rw [List.length_append, List.length_append, hMaker, hPlaces, h, start, start]
  cases column with
  | maker => exact List.take_left' (hPlaces .maker)
  | flavor =>
      rw [joined, ← List.append_assoc, List.drop_left' hMaker]
      exact List.take_left' (hPlaces .flavor)
  | baseFlavor =>
      rw [joined, ← List.append_assoc, ← List.append_assoc, ← List.append_assoc,
        List.drop_left' hFlavor, List.take_of_length_le (Nat.le_of_eq (hPlaces .baseFlavor))]

theorem not_mem_joined {c : Char} (hSeparator : c ∉ separator)
    (hParts : ∀ column, c ∉ parts column) : c ∉ joined separator parts := by
  simp [joined, hSeparator, hParts]

end Joined

/-- The line of a row. -/
def lineOf (rows : List Row) (limit : Int) (row : Row) : List Char :=
  joined [' ', '|', ' '] fun column => shown limit (places rows limit column) (column.cell row)

/-- The line of dashes. -/
def ruleOf (rows : List Row) (limit : Int) : List Char :=
  joined ['-', '+', '-'] fun column => List.replicate (places rows limit column) '-'

/-- The lines of a grid: the header, the rule and the rows in ascending order. -/
def layout (rows : List Row) (limit : Int) : List (List Char) :=
  lineOf rows limit Row.header :: ruleOf rows limit :: (Row.sorted rows).map (lineOf rows limit)

/-- A line of a grid is the rule, or it is the line of the header or of a row. -/
theorem mem_layout_iff {rows : List Row} {limit : Int} {line : List Char} :
    line ∈ layout rows limit ↔
      line = ruleOf rows limit ∨ ∃ row ∈ Row.header :: rows, line = lineOf rows limit row := by
  simp only [layout, List.mem_cons, List.mem_map, (Row.sorted_perm rows).mem_iff,
    exists_eq_or_imp]
  constructor
  · rintro (hHeader | hRule | ⟨row, hRow, rfl⟩)
    · exact .inr (.inl hHeader)
    · exact .inl hRule
    · exact .inr (.inr ⟨row, hRow, rfl⟩)
  · rintro (hRule | hHeader | ⟨row, hRow, rfl⟩)
    · exact .inr (.inl hRule)
    · exact .inl hHeader
    · exact .inr (.inr ⟨row, hRow, rfl⟩)

theorem toList_line {rows : List Row} {row : Row} (h : row ∈ Row.header :: rows) (limit : Int) :
    (line (widths (Row.sorted rows) limit) row).toList = lineOf rows limit row := by
  have hMaker := toList_cell (length_cell_le_longest h .maker) limit
  have hFlavor := toList_cell (length_cell_le_longest h .flavor) limit
  have hBaseFlavor := toList_cell (length_cell_le_longest h .baseFlavor) limit
  simp only [Column.cell] at hMaker hFlavor hBaseFlavor
  rw [widths_sorted, line, String.toList_intercalate]
  simp [Row.fields, lineOf, joined, Column.cell, hMaker, hFlavor, hBaseFlavor]

theorem toList_rule (rows : List Row) (limit : Int) :
    (rule (widths (Row.sorted rows) limit)).toList = ruleOf rows limit := by
  rw [widths_sorted, rule, String.toList_intercalate]
  simp [ruleOf, joined, places]

theorem toList_draw (rows : List Row) (limit : Int) :
    (draw rows limit).toList = ['\n'].intercalate (layout rows limit) := by
  have hRows : ((Row.sorted rows).map (line (widths (Row.sorted rows) limit))).map String.toList =
      (Row.sorted rows).map (lineOf rows limit) := by
    rw [List.map_map]
    apply List.map_congr_left
    intro row hRow
    have hMem : row ∈ rows := (Row.sorted_perm rows).mem_iff.mp hRow
    exact toList_line (List.mem_cons_of_mem _ hMem) limit
  rw [draw, String.toList_intercalate, List.map_cons, List.map_cons, hRows,
    toList_line List.mem_cons_self, toList_rule]
  rfl

/-- A row none of whose cells holds a newline. -/
def OnOneLine (row : Row) : Prop := ∀ field ∈ row.fields, '\n' ∉ field.toList

instance (row : Row) : Decidable (OnOneLine row) :=
  List.decidableBAll (fun field : String => '\n' ∉ field.toList) row.fields

theorem newline_not_mem_shown {limit : Int} {places : Nat} {s : String} (h : '\n' ∉ s.toList) :
    '\n' ∉ shown limit places s := by
  unfold shown
  split
  · simp [h]
  · intro hMem
    rcases List.mem_append.mp hMem with hTaken | hEllipsis
    · exact h (List.mem_of_mem_take hTaken)
    · simp at hEllipsis

theorem newline_not_mem_of_mem_layout {rows : List Row} {limit : Int}
    (h : ∀ row ∈ rows, OnOneLine row) {line : List Char} (hLine : line ∈ layout rows limit) :
    '\n' ∉ line := by
  have hHeader : OnOneLine Row.header := by decide
  have hAll : ∀ row ∈ Row.header :: rows, OnOneLine row := List.forall_mem_cons.mpr ⟨hHeader, h⟩
  rcases mem_layout_iff.mp hLine with rfl | ⟨row, hRow, rfl⟩
  · apply not_mem_joined
    · decide
    · simp
  · apply not_mem_joined
    · decide
    · intro column
      exact newline_not_mem_shown (hAll row hRow _ (column.cell_mem_fields row))

/-- The lines of a grid are read off at its newlines. -/
theorem splitOn_draw {rows : List Row} (h : ∀ row ∈ rows, OnOneLine row) (limit : Int) :
    (draw rows limit).toList.splitOn '\n' = layout rows limit := by
  rw [toList_draw]
  apply List.splitOn_intercalate
  · intro line hLine
    exact newline_not_mem_of_mem_layout h hLine
  · exact List.cons_ne_nil _ _

theorem length_layout (rows : List Row) (limit : Int) :
    (layout rows limit).length = rows.length + 2 := by
  simp [layout, (Row.sorted_perm rows).length_eq]

/-! ## Grids -/

/-- What stands at the positions of a column on a line. -/
def part (rows : List Row) (limit : Int) (column : Column) (line : List Char) : List Char :=
  (line.drop (start (places rows limit) column)).take (places rows limit column)

/-- The lines of a grid are equally long, and a column has the same positions in all of them. -/
structure Aligned (rows : List Row) (limit : Int) : Prop where
  length : ∀ line ∈ layout rows limit, line.length =
    places rows limit .maker + places rows limit .flavor + places rows limit .baseFlavor + 6
  cells : ∀ column, ∀ row ∈ Row.header :: rows, ShowsCell limit (places rows limit column)
    (column.cell row) (part rows limit column (lineOf rows limit row))
  dashes : ∀ column, part rows limit column (ruleOf rows limit) =
    List.replicate (places rows limit column) '-'

theorem aligned {rows : List Row} {limit : Int} (h : 1 ≤ limit) : Aligned rows limit := by
  have hRule : ∀ column, (List.replicate (places rows limit column) '-').length =
      places rows limit column := fun column => List.length_replicate
  refine
    { length := ?_
      cells := ?_
      dashes := ?_ }
  · intro line hLine
    rcases mem_layout_iff.mp hLine with rfl | ⟨row, hRow, rfl⟩
    · rw [ruleOf, length_joined rfl, hRule, hRule, hRule]
    · rw [lineOf, length_joined rfl, length_shown h hRow, length_shown h hRow,
        length_shown h hRow]
  · intro column row hRow
    have hPart : part rows limit column (lineOf rows limit row) =
        shown limit (places rows limit column) (column.cell row) :=
      drop_take_joined rfl (length_shown h hRow) column
    rw [hPart]
    exact showsCell_shown h _ _
  · intro column
    exact drop_take_joined rfl hRule column

/-- The lines of a grid without room for a character. -/
structure Roomless (rows : List Row) (limit : Int) : Prop where
  rule : ruleOf rows limit = "-+--+-".toList
  cells : ∀ row ∈ Row.header :: rows, lineOf rows limit row =
    joined " | ".toList fun column => if limit = 0 ∧ column.cell row = "" then [] else ['…']

theorem roomless {rows : List Row} {limit : Int} (h : limit ≤ 0) : Roomless rows limit := by
  refine
    { rule := ?_
      cells := ?_ }
  · simp only [ruleOf, places_eq_zero rows h]
    rfl
  · intro row _
    simp only [lineOf, places_eq_zero rows h, shown_of_nonpos h]
    rfl

/-- Limits that no cell exceeds give the same grid. -/
theorem draw_eq_of_longest_le {rows : List Row} {limit other : Int}
    (hLimit : ∀ column, longest rows column ≤ limit)
    (hOther : ∀ column, longest rows column ≤ other) : draw rows other = draw rows limit := by
  have hWidth : ∀ column, width rows other column = width rows limit column := by
    intro column
    have hLeft := hLimit column
    have hRight := hOther column
    unfold width
    omega
  have hWidths : widths (Row.sorted rows) other = widths (Row.sorted rows) limit := by
    rw [widths_sorted, widths_sorted, hWidth, hWidth, hWidth]
  rw [draw, draw, hWidths]

/-- **The layout of a grid.** For rows whose cells hold no newline and every
limit that is accepted, a grid is drawn.  Cut at its newlines it is the header,
the rule and the rows in ascending order.  With a positive limit the lines are
aligned, and what is not longer than the limit is shown whole; otherwise there
is no room but for the ellipses.  Limits that no cell exceeds make no
difference. -/
theorem write_lays_out (rows : List Row) (limit : Int) (hLimit : lowestLimit ≤ limit)
    (hRows : ∀ row ∈ rows, OnOneLine row) :
    ∃ text, write rows limit = .ok text ∧
      text.toList.splitOn '\n' = layout rows limit ∧
      (layout rows limit).length = rows.length + 2 ∧
      (1 ≤ limit → Aligned rows limit) ∧
      (limit ≤ 0 → Roomless rows limit) ∧
      ∀ other : Int, (∀ column, longest rows column ≤ limit) →
        (∀ column, longest rows column ≤ other) → write rows other = .ok text := by
  refine ⟨draw rows limit, write_eq_ok_iff.mpr ⟨hLimit, rfl⟩, splitOn_draw hRows limit,
    length_layout rows limit, aligned, roomless, ?_⟩
  intro other hLongest hOther
  have hAccepted : lowestLimit ≤ other := by
    have hMaker := hOther .maker
    unfold lowestLimit
    omega
  exact write_eq_ok_iff.mpr ⟨hAccepted, (draw_eq_of_longest_le hLongest hOther).symm⟩

/-- A maker and a column name are longer than eight characters, and are cut. -/
theorem write_lays_out_eight :
    ∃ text, write [⟨"Cold Stone Creamery", "Mint", "Misc"⟩] 8 = .ok text ∧
      text.toList.splitOn '\n' =
        ["Maker    | Flavor | BaseFla…".toList, "---------+--------+---------".toList,
          "Cold St… | Mint   | Misc    ".toList] := by
  obtain ⟨text, hWrite, hLines, -⟩ :=
    write_lays_out [⟨"Cold Stone Creamery", "Mint", "Misc"⟩] 8 (by decide) (by decide)
  refine ⟨text, hWrite, hLines.trans ?_⟩
  decide

/-- A limit below the lowest one is refused, although the cells hold no newline. -/
theorem write_refuses_lower_limit :
    (∀ row ∈ [⟨"Graeters", "Mint", "Misc"⟩], OnOneLine row) ∧
      ¬∃ text, write [⟨"Graeters", "Mint", "Misc"⟩] (-9223372036854775809) = .ok text := by
  refine ⟨by decide, ?_⟩
  rintro ⟨text, hWrite⟩
  have hLow := (write_eq_ok_iff.mp hWrite).1
  exact absurd hLow (by decide)

end FlavorTable.Grid
