import FlavorTable.Proofs.Csv.Quoting
import FlavorTable.Proofs.Csv.Reading

/-!
# Writing a table and reading it back

The writer quotes commas and quotes and nothing else, so a line break inside a
field is written as it is and cuts the line in two.  Without such breaks each
row stands on a line of its own, none of these lines is blank, and the reader
gets the rows back in the order in which they were written.  With a break in
some field it cannot: no row that was read holds one.

## Main results

* `readRow_writeRow` — a written row is read back, whatever its fields are.
* `lines_write` — the lines of a written table, one a row.
* `parse_write` — tables without line breaks are read back.
* `parse_write_eq_sorted_iff` — and no others.
-/

namespace FlavorTable.Csv

open FlavorTable.Text

/-! ## Written rows -/

theorem split_writeRow (row : Row) : split (writeRow defaultDelimiter row) = .ok row.fields :=
  split_joined (List.cons_ne_nil _ _)

theorem readRow_writeRow (row : Row) (number : Nat) :
    readRow (writeRow defaultDelimiter row) number = .ok row :=
  readRow_eq_ok_iff.mpr (split_writeRow row)

/-- A written row begins with its maker and goes on with the delimiter. -/
theorem toList_writeRow_singleton (delimiter : Char) (row : Row) :
    (writeRow (.singleton delimiter) row).toList =
      (quoteField row.maker).toList ++ delimiter :: ((quoteField row.flavor).toList ++
        delimiter :: (quoteField row.baseFlavor).toList) := by
  simp [writeRow, Row.fields]

theorem delimiter_mem_writeRow (delimiter : Char) (row : Row) :
    delimiter ∈ (writeRow (.singleton delimiter) row).toList := by
  rw [toList_writeRow_singleton]
  exact List.mem_append_right _ List.mem_cons_self

theorem defaultDelimiter_eq : defaultDelimiter = .singleton ',' := rfl

/-- A row written with commas. -/
theorem toList_writeRow (row : Row) :
    (writeRow defaultDelimiter row).toList =
      (quoteField row.maker).toList ++ ',' :: ((quoteField row.flavor).toList ++
        ',' :: (quoteField row.baseFlavor).toList) := by
  rw [defaultDelimiter_eq]
  exact toList_writeRow_singleton ',' row

theorem isBlankText_writeRow (row : Row) :
    isBlankText (writeRow defaultDelimiter row).toList = false := by
  rw [Bool.eq_false_iff]
  intro hBlank
  rw [defaultDelimiter_eq] at hBlank
  have hComma := isBlankText_iff.mp hBlank ',' (delimiter_mem_writeRow ',' row)
  cases hComma

/-- Quoting adds no characters but double quotes. -/
theorem mem_quoteField {s : String} {c : Char} (h : c ∈ (quoteField s).toList) :
    c = '"' ∨ c ∈ s.toList := by
  rw [toList_quoteField] at h
  split at h
  · simp only [List.mem_cons, List.mem_append, List.not_mem_nil, or_false] at h
    rcases h with hQuote | hDoubled | hQuote
    · exact .inl hQuote
    · obtain ⟨d, hd, hc⟩ := List.mem_flatMap.mp hDoubled
      by_cases hQuote : d = '"'
      · rw [if_pos hQuote] at hc
        simp only [List.mem_cons, List.not_mem_nil, or_false, or_self] at hc
        exact .inl hc
      · rw [if_neg hQuote, List.mem_singleton] at hc
        exact .inr (hc ▸ hd)
    · exact .inl hQuote
  · exact .inr h

theorem breakFree_quoteField {s : String} (h : BreakFree s.toList) :
    BreakFree (quoteField s).toList := by
  intro c hc
  rcases mem_quoteField hc with rfl | hMem
  · rfl
  · exact h c hMem

theorem breakFree_writeRow_singleton {delimiter : Char} (hDelimiter : isBreak delimiter = false)
    {row : Row} (h : row.BreakFree) :
    BreakFree (writeRow (.singleton delimiter) row).toList := by
  intro c hc
  have hField : ∀ field ∈ row.fields, c ∈ (quoteField field).toList → isBreak c = false :=
    fun field hMem hIn => breakFree_quoteField (h field hMem) c hIn
  rw [toList_writeRow_singleton] at hc
  simp only [List.mem_append, List.mem_cons] at hc
  rcases hc with hMaker | rfl | hFlavor | rfl | hBase
  · exact hField row.maker (by simp [Row.fields]) hMaker
  · exact hDelimiter
  · exact hField row.flavor (by simp [Row.fields]) hFlavor
  · exact hDelimiter
  · exact hField row.baseFlavor (by simp [Row.fields]) hBase

theorem breakFree_writeRow {row : Row} (h : row.BreakFree) :
    BreakFree (writeRow defaultDelimiter row).toList := by
  have hComma : isBreak ',' = false := rfl
  rw [defaultDelimiter_eq]
  exact breakFree_writeRow_singleton hComma h

/-! ## Written tables -/

theorem toList_write (rows : List Row) (delimiter : String) :
    (write rows delimiter).toList =
      ['\n'].intercalate ((Row.header :: Row.sorted rows).map fun row =>
        (writeRow delimiter row).toList) := by
  rw [write, String.toList_intercalate, List.map_map]
  rfl

/-- The lines of a written table: the header and one line a row, in order. -/
theorem lines_write_singleton {delimiter : Char} (hDelimiter : isBreak delimiter = false)
    {rows : List Row} (h : ∀ row ∈ rows, row.BreakFree) :
    lines (write rows (.singleton delimiter)).toList =
      (Row.header :: Row.sorted rows).map fun row =>
        (writeRow (.singleton delimiter) row).toList := by
  have hHeader : Row.header.BreakFree := by decide
  have hAll : ∀ row ∈ Row.header :: Row.sorted rows, row.BreakFree := by
    intro row hRow
    rcases List.mem_cons.mp hRow with rfl | hMem
    · exact hHeader
    · exact h row ((Row.sorted_perm rows).mem_iff.mp hMem)
  rw [toList_write]
  apply lines_intercalate
  · intro line hLine
    obtain ⟨row, hRow, rfl⟩ := List.mem_map.mp hLine
    exact breakFree_writeRow_singleton hDelimiter (hAll row hRow)
  · intro line hLine
    obtain ⟨row, -, rfl⟩ := List.mem_map.mp hLine
    exact List.ne_nil_of_mem (delimiter_mem_writeRow delimiter row)

theorem lines_write {rows : List Row} (h : ∀ row ∈ rows, row.BreakFree) :
    lines (write rows defaultDelimiter).toList =
      (Row.header :: Row.sorted rows).map fun row => (writeRow defaultDelimiter row).toList := by
  have hComma : isBreak ',' = false := rfl
  rw [defaultDelimiter_eq]
  exact lines_write_singleton hComma h

/-- No line of a written table is skipped. -/
theorem contentLines_write {rows : List Row} (h : ∀ row ∈ rows, row.BreakFree) :
    contentLines (write rows defaultDelimiter) =
      ((Row.header :: Row.sorted rows).map fun row =>
        (writeRow defaultDelimiter row).toList).zipIdx 1 := by
  rw [contentLines, lines_write h, List.filter_eq_self]
  rintro ⟨line, number⟩ hMem
  obtain ⟨row, -, rfl⟩ := List.mem_map.mp (List.fst_mem_of_mem_zipIdx hMem)
  simp [isBlankText_writeRow]

/-- Numbered lines of written rows are read as these rows. -/
theorem map_readRow_zipIdx (rows : List Row) (first : Nat) :
    (((rows.map fun row => (writeRow defaultDelimiter row).toList).zipIdx first).map
      fun numbered => readRow (.ofList numbered.1) numbered.2) = rows.map .ok := by
  induction rows generalizing first with
  | nil => rfl
  | cons row rest ih =>
      rw [List.map_cons, List.zipIdx_cons, List.map_cons, ih, String.ofList_toList,
        readRow_writeRow, List.map_cons]

/-- A table without line breaks is read back in ascending order. -/
theorem parse_write {rows : List Row} (h : ∀ row ∈ rows, row.BreakFree) :
    parse (write rows defaultDelimiter) = .ok (Row.sorted rows) := by
  rw [parse, contentLines_write h]
  exact mapM_eq_ok_iff.mpr (map_readRow_zipIdx _ 2)

/-- **Round trip.** Reading a written table succeeds and gives its rows in
ascending order, repetitions kept, exactly when no field holds a line break. -/
theorem parse_write_eq_sorted_iff (rows : List Row) :
    parse (write rows defaultDelimiter) = .ok (Row.sorted rows) ↔
      ∀ row ∈ rows, ∀ field ∈ row.fields, ∀ c ∈ field.toList, c ∉ breakChars := by
  have hBreak : ∀ c, c ∉ breakChars ↔ isBreak c = false := fun c => by
    rw [← isBreak_iff, Bool.not_eq_true]
  constructor
  · intro h row hRow field hField c hc
    have hFree := breakFree_of_parse h ((Row.sorted_perm rows).mem_iff.mpr hRow)
    exact (hBreak c).mpr (hFree field hField c hc)
  · intro h
    apply parse_write
    intro row hRow field hField c hc
    exact (hBreak c).mp (h row hRow field hField c hc)

end FlavorTable.Csv
