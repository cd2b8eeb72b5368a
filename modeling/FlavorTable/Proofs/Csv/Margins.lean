import Mathlib.Data.List.Forall2
import FlavorTable.Proofs.Csv.RoundTrip
import FlavorTable.Proofs.Csv.Separators

/-!
# Tables with line breaks, read back

A line break inside a field is written as it is and cuts the line of its row.
The pieces are then read as lines of their own, and nearly always one of them
cannot be: a cut inside quotes leaves an odd number of quotes, and a cut
between two separators leaves lines with too few fields.

What goes unnoticed is decided by counting.  If every piece with content can
be read as a row, each has two separators.  The whole line has two as well,
and cutting it where it is outside of quotes loses none, so there is one piece
with content and the others are blank.  These blank margins held the beginning
of the maker and the end of the base flavor, and nothing else.

## Main results

* `exists_trimmed_of_margins` — a written row between white space is another
  written row, and which one.
* `exists_trimmed_of_content` — a cut row that is read has one piece with content.
* `parse_write_trims_margins` — what is read from a written table, if anything.
-/

namespace FlavorTable

/-- `read` is `row` less white space in front of the maker and behind the base flavor. -/
structure Row.TrimmedTo (row read : Row) : Prop where
  maker : ∃ margin : String, Text.isBlankText margin.toList = true ∧
    row.maker = margin ++ read.maker
  flavor : row.flavor = read.flavor
  baseFlavor : ∃ margin : String, Text.isBlankText margin.toList = true ∧
    row.baseFlavor = read.baseFlavor ++ margin

namespace Csv

open FlavorTable.Text

/-! ## Written fields with margins -/

theorem needsQuotes_append (s t : String) :
    needsQuotes (s ++ t) = (needsQuotes s || needsQuotes t) := by
  simp [needsQuotes]

theorem quoteField_of_plain {s : String} (h : needsQuotes s = false) : quoteField s = s := by
  simp [quoteField, h]

/-- White space in front of a written field stands in front of the field. -/
theorem exists_field_of_blank_append {s : String} {before rest : List Char}
    (hBlank : isBlankText before = true) (h : (quoteField s).toList = before ++ rest) :
    ∃ field : String, s = .ofList before ++ field ∧ rest = (quoteField field).toList := by
  cases before with
  | nil => exact ⟨s, by simp, h.symm⟩
  | cons c before =>
      cases hQuotes : needsQuotes s with
      | true =>
          rw [toList_quoteField, if_pos hQuotes, List.cons_append] at h
          exact absurd (List.cons.inj h).1.symm (ne_of_isBlank (isBlankText_cons.mp hBlank).1).1
      | false =>
          have hSplit : s = .ofList (c :: before) ++ .ofList rest := by
            rw [quoteField_of_plain hQuotes] at h
            rw [← String.ofList_append, ← h, String.ofList_toList]
          rw [hSplit, needsQuotes_append, Bool.or_eq_false_iff] at hQuotes
          exact ⟨_, hSplit, by rw [quoteField_of_plain hQuotes.2, String.toList_ofList]⟩

/-- White space behind a written field stands behind the field. -/
theorem exists_field_of_append_blank {s : String} {rest after : List Char}
    (hBlank : isBlankText after = true) (h : (quoteField s).toList = rest ++ after) :
    ∃ field : String, s = field ++ .ofList after ∧ rest = (quoteField field).toList := by
  rcases List.eq_nil_or_concat after with rfl | ⟨init, c, rfl⟩
  · exact ⟨s, by simp, by simpa using h.symm⟩
  · cases hQuotes : needsQuotes s with
    | true =>
        rw [toList_quoteField, if_pos hQuotes, ← List.cons_append, List.concat_eq_append,
          ← List.append_assoc] at h
        have hLast : '"' = c := (List.append_singleton_inj.mp h).2
        exact absurd hLast.symm (ne_of_isBlank (isBlankText_iff.mp hBlank c (by simp))).1
    | false =>
        have hSplit : s = .ofList rest ++ .ofList (init.concat c) := by
          rw [quoteField_of_plain hQuotes] at h
          rw [← String.ofList_append, ← h, String.ofList_toList]
        rw [hSplit, needsQuotes_append, Bool.or_eq_false_iff] at hQuotes
        exact ⟨_, hSplit, by rw [quoteField_of_plain hQuotes.1, String.toList_ofList]⟩

/-! ## Written rows with margins -/

/-- A stretch without `c` in front of a text lies before its first known `c`. -/
theorem exists_front_of_append_eq {α : Type} {front rest p q : List α} {c : α} (hc : c ∉ front)
    (h : p ++ c :: q = front ++ rest) : ∃ p', p = front ++ p' ∧ rest = p' ++ c :: q := by
  rcases List.append_eq_append_iff.mp h with ⟨between, rfl, hRest⟩ | ⟨between, rfl, rfl⟩
  · cases between with
    | nil => exact ⟨[], by simp, hRest.symm⟩
    | cons d between =>
        rw [List.cons_append, List.cons.injEq] at hRest
        exact absurd (by simp [hRest.1]) hc
  · exact ⟨between, rfl, rfl⟩

/-- A stretch without `c` behind a text lies after its last known `c`. -/
theorem exists_back_of_append_eq {α : Type} {back rest p q : List α} {c : α} (hc : c ∉ back)
    (h : p ++ c :: q = rest ++ back) : ∃ q', q = q' ++ back ∧ rest = p ++ c :: q' := by
  rcases List.append_eq_append_iff.mp h with ⟨between, rfl, hBack⟩ | ⟨between, rfl, rfl⟩
  · cases between with
    | nil =>
        have hMem : c ∈ [] ++ back := hBack ▸ List.mem_cons_self
        exact absurd hMem hc
    | cons d between =>
        rw [List.cons_append, List.cons.injEq] at hBack
        exact ⟨between, hBack.2, by rw [hBack.1]⟩
  · exact absurd (by simp) hc

/-- If a written row is a line between white space, the line is a written row too. -/
theorem exists_trimmed_of_margins {row : Row} {before line after : List Char}
    (h : (writeRow defaultDelimiter row).toList = before ++ (line ++ after))
    (hBefore : isBlankText before = true) (hAfter : isBlankText after = true) :
    ∃ read : Row, row.TrimmedTo read ∧ line = (writeRow defaultDelimiter read).toList := by
  have hNoComma : ∀ {margin : List Char}, isBlankText margin = true → ',' ∉ margin :=
    fun hBlank hComma => (ne_of_isBlank (isBlankText_iff.mp hBlank _ hComma)).2 rfl
  rw [toList_writeRow] at h
  obtain ⟨front, hMaker, hLine⟩ := exists_front_of_append_eq (hNoComma hBefore) h
  rw [← List.cons_append, ← List.append_assoc] at hLine
  obtain ⟨back, hBase, rfl⟩ := exists_back_of_append_eq (hNoComma hAfter) hLine.symm
  obtain ⟨maker, hMakerEq, rfl⟩ := exists_field_of_blank_append hBefore hMaker
  obtain ⟨baseFlavor, hBaseEq, rfl⟩ := exists_field_of_append_blank hAfter hBase
  refine ⟨⟨maker, row.flavor, baseFlavor⟩, ?_, ?_⟩
  · exact
      { maker := ⟨.ofList before, by rwa [String.toList_ofList], hMakerEq⟩
        flavor := rfl
        baseFlavor := ⟨.ofList after, by rwa [String.toList_ofList], hBaseEq⟩ }
  · rw [toList_writeRow]
    simp

/-! ## Cut rows -/

theorem separators_of_split {line : List Char} {row : Row}
    (h : split (.ofList line) = .ok row.fields) :
    insideAfter false line = false ∧ separators false line = 2 := by
  unfold split at h
  rw [String.toList_ofList] at h
  cases hScan : scan false line with
  | none =>
      rw [hScan] at h
      cases h
  | some pieces =>
      rw [hScan] at h
      obtain ⟨hOutside, hLength⟩ := length_of_scan hScan
      have hFields := congrArg List.length (Except.ok.inj h)
      rw [List.length_map, Row.length_fields] at hFields
      exact ⟨hOutside, by omega⟩

/-- If the pieces of a written row are read as rows, one piece has content, and it is
the row with its margins trimmed. -/
theorem exists_trimmed_of_content {row : Row}
    (h : ∀ line ∈ content (writeRow defaultDelimiter row).toList,
      ∃ read : Row, split (.ofList line) = .ok read.fields) :
    ∃ read : Row, row.TrimmedTo read ∧
      content (writeRow defaultDelimiter row).toList =
        [(writeRow defaultDelimiter read).toList] := by
  have hLines : ∀ line ∈ content (writeRow defaultDelimiter row).toList,
      insideAfter false line = false ∧ separators false line = 2 := by
    intro line hLine
    obtain ⟨read, hRead⟩ := h line hLine
    exact separators_of_split hRead
  have hWhole : separators false (writeRow defaultDelimiter row).toList = 2 := by
    have hSplit := split_writeRow row
    rw [← String.ofList_toList (s := writeRow defaultDelimiter row)] at hSplit
    exact (separators_of_split hSplit).2
  -- Each line with content has two separators, and so has the row: there is one line.
  have hCount := separators_eq_mul_content hLines
  obtain ⟨line, hContent⟩ := List.length_eq_one_iff.mp
    (show (content (writeRow defaultDelimiter row).toList).length = 1 by omega)
  obtain ⟨before, after, hText, hBefore, hAfter⟩ := exists_margins_of_content hContent
  obtain ⟨read, hTrimmed, rfl⟩ := exists_trimmed_of_margins hText hBefore hAfter
  exact ⟨read, hTrimmed, hContent⟩

/-! ## Cut tables -/

/-- If the content of written rows is read as rows, so are the pieces of each of them. -/
theorem exists_read_of_mem {rows parsed : List Row}
    (h : ((rows.flatMap fun row => content (writeRow defaultDelimiter row).toList).map
      fun line => split (.ofList line)) = parsed.map fun row => .ok row.fields)
    {row : Row} (hRow : row ∈ rows) :
    ∀ line ∈ content (writeRow defaultDelimiter row).toList,
      ∃ read : Row, split (.ofList line) = .ok read.fields := by
  intro line hLine
  have hMem : split (.ofList line) ∈ parsed.map fun row => .ok row.fields := by
    rw [← h]
    exact List.mem_map_of_mem (List.mem_flatMap.mpr ⟨row, hRow, hLine⟩)
  obtain ⟨read, -, hRead⟩ := List.mem_map.mp hMem
  exact ⟨read, hRead.symm⟩

/-- Rows that are read from the content of written rows are these rows, trimmed. -/
theorem forall_trimmed_of_split {rows parsed : List Row}
    (h : ((rows.flatMap fun row => content (writeRow defaultDelimiter row).toList).map
      fun line => split (.ofList line)) = parsed.map fun row => .ok row.fields) :
    List.Forall₂ Row.TrimmedTo rows parsed := by
  induction rows generalizing parsed with
  | nil =>
      rw [List.flatMap_nil, List.map_nil, eq_comm, List.map_eq_nil_iff] at h
      subst h
      exact .nil
  | cons row rest ih =>
      obtain ⟨read, hTrimmed, hContent⟩ :=
        exists_trimmed_of_content (exists_read_of_mem h List.mem_cons_self)
      rw [List.flatMap_cons, List.map_append] at h
      rw [hContent, List.map_singleton, String.ofList_toList, split_writeRow,
        List.singleton_append] at h
      cases parsed with
      | nil => cases h
      | cons first others =>
          obtain ⟨hFirst, hOthers⟩ := List.cons.inj h
          have hEq : read = first := Row.fields_injective (Except.ok.inj hFirst)
          exact .cons (hEq ▸ hTrimmed) (ih hOthers)

/-- Written rows that leave one line with content each are read as rows. -/
theorem exists_split_of_content {rows : List Row}
    (h : ∀ row ∈ rows, ∃ line, content (writeRow defaultDelimiter row).toList = [line]) :
    ∃ parsed : List Row,
      ((rows.flatMap fun row => content (writeRow defaultDelimiter row).toList).map
        fun line => split (.ofList line)) = parsed.map fun row => .ok row.fields := by
  induction rows with
  | nil => exact ⟨[], rfl⟩
  | cons row rest ih =>
      obtain ⟨parsed, hParsed⟩ := ih fun other hOther => h other (List.mem_cons_of_mem row hOther)
      obtain ⟨line, hContent⟩ := h row List.mem_cons_self
      obtain ⟨before, after, hText, hBefore, hAfter⟩ := exists_margins_of_content hContent
      obtain ⟨read, -, rfl⟩ := exists_trimmed_of_margins hText hBefore hAfter
      refine ⟨read :: parsed, ?_⟩
      rw [List.flatMap_cons, List.map_append, hParsed, hContent, List.map_singleton,
        String.ofList_toList, split_writeRow, List.map_cons, List.singleton_append]

/-- The content of a written table is that of its lines. -/
theorem content_write (rows : List Row) :
    content (write rows defaultDelimiter).toList =
      (writeRow defaultDelimiter Row.header).toList ::
        (Row.sorted rows).flatMap fun row => content (writeRow defaultDelimiter row).toList := by
  have hHeader : content (writeRow defaultDelimiter Row.header).toList =
      [(writeRow defaultDelimiter Row.header).toList] :=
    content_of_breakFree (breakFree_writeRow (by decide)) (isBlankText_writeRow _)
  rw [toList_write, content_intercalate, List.flatMap_map, List.flatMap_cons, hHeader]
  rfl

/-- A written table is read when the content of its rows is. -/
theorem parse_write_eq_ok_iff {rows parsed : List Row} :
    parse (write rows defaultDelimiter) = .ok parsed ↔
      (((Row.sorted rows).flatMap fun row => content (writeRow defaultDelimiter row).toList).map
        fun line => split (.ofList line)) = parsed.map fun row => .ok row.fields := by
  rw [parse_eq_ok_iff, content_write]
  constructor
  · rintro ⟨header, body, hContent, hSplit⟩
    rwa [← (List.cons.inj hContent).2] at hSplit
  · intro hSplit
    exact ⟨_, _, rfl, hSplit⟩

/-- **What a written table is read as.** A written table with arbitrary texts in
its fields is refused, or it is read as the same number of rows in the same
order, each with its flavor and with at most white space missing in front of
the maker and behind the base flavor.  It is read exactly when each written
row leaves one line that is not blank. -/
theorem parse_write_trims_margins (rows : List Row) :
    ((∃ fault, parse (write rows defaultDelimiter) = .error fault) ∨
      ∃ parsed, parse (write rows defaultDelimiter) = .ok parsed ∧
        parsed.length = rows.length ∧ List.Forall₂ Row.TrimmedTo (Row.sorted rows) parsed) ∧
    ((∃ parsed, parse (write rows defaultDelimiter) = .ok parsed) ↔
      ∀ row ∈ rows, ∃ line, content (writeRow defaultDelimiter row).toList = [line]) := by
  refine ⟨?_, ?_, ?_⟩
  · cases hParse : parse (write rows defaultDelimiter) with
    | error fault => exact .inl ⟨fault, rfl⟩
    | ok parsed =>
        right
        have hTrimmed := forall_trimmed_of_split (parse_write_eq_ok_iff.mp hParse)
        refine ⟨parsed, rfl, ?_, hTrimmed⟩
        rw [← hTrimmed.length_eq, (Row.sorted_perm rows).length_eq]
  · rintro ⟨parsed, hParse⟩ row hRow
    have hSorted := (Row.sorted_perm rows).mem_iff.mpr hRow
    obtain ⟨read, -, hContent⟩ :=
      exists_trimmed_of_content (exists_read_of_mem (parse_write_eq_ok_iff.mp hParse) hSorted)
    exact ⟨_, hContent⟩
  · intro hContent
    obtain ⟨parsed, hParsed⟩ := exists_split_of_content fun row hRow =>
      hContent row ((Row.sorted_perm rows).mem_iff.mp hRow)
    exact ⟨parsed, parse_write_eq_ok_iff.mpr hParsed⟩

/-- Breaks in the margins are lost with the white space that they cut off. -/
example : parse (write [⟨"\n Graeters", "Mint", "Misc \r\n"⟩] defaultDelimiter) =
    .ok [⟨" Graeters", "Mint", "Misc "⟩] := by
  rfl

end Csv

end FlavorTable
