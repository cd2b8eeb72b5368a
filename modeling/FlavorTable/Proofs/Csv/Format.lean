import FlavorTable.Proofs.Csv.Parity
import FlavorTable.Proofs.Csv.Reading

/-!
# The format of a table

A text is a table when it has a line that is not blank, its header, and every
later line that is not blank is read as a row: its quotes are closed and two
commas outside of quotes cut it into three fields.

A text that is no table is refused with one fault.  If there is no header, the
fault says so.  Otherwise it is the fault of the first line that is not read as
a row, and it depends on the lines up to that one only: on how many there are,
for the number in the fault counts all physical lines, blank or not, and on the
line itself.

## Main results

* `readRow_eq_error_iff` — why a line is not read as a row.
* `contentLines_eq_append_iff` — where a numbered line stands in the text.
* `parse_eq_error_iff` — why a text is refused.
* `parse_accepts_format` — which texts are tables, their rows, and the first fault of the others.
-/

namespace FlavorTable.Csv

open FlavorTable.Text

/-! ## One line -/

/-- The line is read as a row: its quotes are closed and it is cut into three fields. -/
def IsRowLine (line : List Char) : Prop := line.count '"' % 2 = 0 ∧ cuts line = 2

/-- Why the line with this number is not read as a row.  Its fields are counted only if its
quotes are closed. -/
inductive IsRefusedLine (number : Nat) (line : List Char) : Fault → Prop where
  | unclosedQuote (hOdd : line.count '"' % 2 = 1) :
      IsRefusedLine number line (.unclosedQuote (.ofList line))
  | fieldCount (hEven : line.count '"' % 2 = 0) (hCuts : cuts line ≠ 2) :
      IsRefusedLine number line (.fieldCount number (.ofList line) (cuts line + 1))

variable {line : List Char} {number : Nat} {fault : Fault}

theorem split_of_odd (h : line.count '"' % 2 = 1) :
    split (.ofList line) = .error (.unclosedQuote (.ofList line)) :=
  split_eq_error_iff.mpr ⟨by rwa [String.toList_ofList], rfl⟩

theorem split_of_even (h : line.count '"' % 2 = 0) :
    split (.ofList line) = .ok ((fieldsByParity line).map .ofList) :=
  split_eq_ok_iff.mpr ⟨by rwa [String.toList_ofList], by rw [String.toList_ofList]⟩

theorem IsRowLine.exists_split (h : IsRowLine line) :
    ∃ row : Row, split (.ofList line) = .ok row.fields := by
  obtain ⟨hEven, hCuts⟩ := h
  have hLength : ((fieldsByParity line).map String.ofList).length = 3 := by
    rw [List.length_map, length_fieldsByParity, hCuts]
  obtain ⟨row, hRow⟩ := Row.exists_eq_fields_iff.mpr hLength
  exact ⟨row, by rw [split_of_even hEven, hRow]⟩

theorem IsRefusedLine.readRow_eq (h : IsRefusedLine number line fault) :
    readRow (.ofList line) number = .error fault := by
  cases h with
  | unclosedQuote hOdd =>
      rw [readRow, split_of_odd hOdd]
      rfl
  | fieldCount hEven hCuts =>
      have hLength : ((fieldsByParity line).map String.ofList).length = cuts line + 1 := by
        rw [List.length_map, length_fieldsByParity]
      have hNone : Row.ofFields? ((fieldsByParity line).map String.ofList) = none := by
        rw [Row.ofFields?_eq_none_iff, hLength]
        omega
      rw [readRow, split_of_even hEven, ← hLength]
      simp only [bind, Except.bind, hNone]
      rfl

/-- A line is read as a row, or there is a reason why not. -/
theorem isRowLine_or_isRefusedLine (number : Nat) (line : List Char) :
    IsRowLine line ∨ ∃ fault, IsRefusedLine number line fault := by
  by_cases hEven : line.count '"' % 2 = 0
  · by_cases hCuts : cuts line = 2
    · exact .inl ⟨hEven, hCuts⟩
    · exact .inr ⟨_, .fieldCount hEven hCuts⟩
  · exact .inr ⟨_, .unclosedQuote (by omega)⟩

theorem IsRowLine.exists_readRow (h : IsRowLine line) (number : Nat) :
    ∃ row, readRow (.ofList line) number = .ok row := by
  obtain ⟨row, hSplit⟩ := h.exists_split
  exact ⟨row, readRow_eq_ok_iff.mpr hSplit⟩

/-- Reading a line as a row fails for the reason that its quotes and commas tell. -/
theorem readRow_eq_error_iff :
    readRow (.ofList line) number = .error fault ↔ IsRefusedLine number line fault := by
  have hComplete : (∃ row, readRow (.ofList line) number = .ok row) ∨
      ∃ fault, IsRefusedLine number line fault :=
    (isRowLine_or_isRefusedLine number line).imp_left fun h => h.exists_readRow number
  exact eq_error_iff_of_complete id IsRefusedLine.readRow_eq hComplete

theorem isRowLine_of_readRow {row : Row} (h : readRow (.ofList line) number = .ok row) :
    IsRowLine line := by
  rcases isRowLine_or_isRefusedLine number line with hRow | ⟨fault, hRefused⟩
  · exact hRow
  · rw [hRefused.readRow_eq] at h
    cases h

/-- Several numbered lines are read as rows when each of them is. -/
theorem exists_rows_iff {numbered : List (List Char × Nat)} :
    (∃ rows : List Row,
      (numbered.map fun line => readRow (.ofList line.1) line.2) = rows.map .ok) ↔
      ∀ line ∈ numbered.map Prod.fst, IsRowLine line := by
  rw [exists_map_eq_ok_iff, List.forall_mem_map]
  constructor
  · intro h line hLine
    obtain ⟨row, hRow⟩ := h line hLine
    exact isRowLine_of_readRow hRow
  · intro h line hLine
    exact (h line hLine).exists_readRow line.2

/-! ## Numbered lines -/

/-- A line with content stands in the text, behind as many lines as its number tells. -/
theorem contentLines_eq_append_iff {text : String} {front after : List (List Char × Nat)} :
    contentLines text = front ++ (line, number) :: after ↔
      ∃ earlier later, lines text.toList = earlier ++ line :: later ∧
        number = earlier.length + 1 ∧ isBlankText line = false ∧
        front = numberedContent 1 earlier ∧ after = numberedContent (number + 1) later := by
  constructor
  · intro h
    obtain ⟨frontLines, rest, hLines, rfl, hRest⟩ := List.filter_eq_append_iff.mp h
    obtain ⟨blank, others, rfl, hBlank, hContent, rfl⟩ := List.filter_eq_cons_iff.mp hRest
    -- The blank lines right before the line are among the earlier ones.
    rw [← List.append_assoc] at hLines
    obtain ⟨earlier, suffix, hText, hEarlier, hSuffix⟩ := List.zipIdx_eq_append_iff.mp hLines
    obtain ⟨found, later, rfl, hFound, rfl⟩ := List.zipIdx_eq_cons_iff.mp hSuffix.symm
    obtain ⟨rfl, rfl⟩ := Prod.mk.inj hFound
    refine ⟨earlier, later, hText, Nat.add_comm _ _, by simpa using hContent, ?_, rfl⟩
    rw [numberedContent, ← hEarlier, List.filter_append, List.filter_eq_nil_iff.mpr hBlank,
      List.append_nil]
  · rintro ⟨earlier, later, hText, rfl, hBlank, rfl, rfl⟩
    rw [contentLines, hText, List.zipIdx_append, List.filter_append, List.zipIdx_cons,
      List.filter_cons_of_pos (by simpa using hBlank), Nat.add_comm 1]
    rfl

/-! ## Texts -/

/-- Why a text is no table: it has no header, or some line after the header is not read as a
row, and those before it are. -/
inductive IsRefusedText (text : List Char) : Fault → Prop where
  | missingHeader (hBlank : ∀ line ∈ lines text, isBlankText line = true) :
      IsRefusedText text .missingHeader
  | line {earlier later rows : List (List Char)} {header bad : List Char} {fault : Fault}
      (hText : lines text = earlier ++ bad :: later) (hBad : isBlankText bad = false)
      (hEarlier : (earlier.filter fun line => !isBlankText line) = header :: rows)
      (hRows : ∀ line ∈ rows, IsRowLine line)
      (hFault : IsRefusedLine (earlier.length + 1) bad fault) : IsRefusedText text fault

theorem contentLines_eq_nil_iff {text : String} :
    contentLines text = [] ↔ ∀ line ∈ lines text.toList, isBlankText line = true := by
  rw [← List.map_eq_nil_iff, map_fst_contentLines, content, List.filter_eq_nil_iff]
  simp

theorem IsRefusedText.parse_eq {text : String} (h : IsRefusedText text.toList fault) :
    parse text = .error fault := by
  cases h with
  | missingHeader hBlank =>
      exact parse_eq_missingHeader_iff.mpr (contentLines_eq_nil_iff.mpr hBlank)
  | line hText hBad hEarlier hRows hFault =>
      have hContent := contentLines_eq_append_iff.mpr ⟨_, _, hText, rfl, hBad, rfl, rfl⟩
      rw [← map_fst_numberedContent 1] at hEarlier
      obtain ⟨header, before, hFront, -, rfl⟩ := List.map_eq_cons_iff.mp hEarlier
      rw [hFront, List.cons_append] at hContent
      rw [parse, hContent]
      exact mapM_eq_error_iff.mpr
        ⟨before, _, _, rfl, exists_rows_iff.mpr hRows, readRow_eq_error_iff.mpr hFault⟩

/-- A text is refused for the reason that its lines tell. -/
theorem parse_eq_error_iff {text : String} :
    parse text = .error fault ↔ IsRefusedText text.toList fault := by
  refine ⟨fun h => ?_, IsRefusedText.parse_eq⟩
  cases hContent : contentLines text with
  | nil =>
      rw [parse_eq_missingHeader_iff.mpr hContent] at h
      cases h
      exact .missingHeader (contentLines_eq_nil_iff.mp hContent)
  | cons header body =>
      rw [parse, hContent] at h
      obtain ⟨before, ⟨bad, number⟩, after, rfl, hBefore, hBad⟩ := mapM_eq_error_iff.mp h
      rw [← List.cons_append] at hContent
      obtain ⟨earlier, later, hText, rfl, hBlank, hFront, -⟩ :=
        contentLines_eq_append_iff.mp hContent
      have hEarlier := map_fst_numberedContent 1 earlier
      rw [← hFront, List.map_cons] at hEarlier
      exact .line hText hBlank hEarlier.symm (exists_rows_iff.mp hBefore)
        (readRow_eq_error_iff.mp hBad)

/-- A text is a table when its lines with content are a header and lines that are read as rows. -/
theorem exists_parse_iff {text : String} :
    (∃ rows, parse text = .ok rows) ↔
      ∃ header body, content text.toList = header :: body ∧ ∀ line ∈ body, IsRowLine line := by
  rw [← map_fst_contentLines]
  unfold parse
  cases contentLines text with
  | nil => simp
  | cons header body =>
      simp only [mapM_eq_ok_iff, exists_rows_iff]
      constructor
      · intro hBody
        exact ⟨_, _, rfl, hBody⟩
      · rintro ⟨_, _, hContent, hBody⟩
        rwa [← (List.cons.inj hContent).2] at hBody

/-- **The format of a table.** A text is a table when it has a header and every later line with
content has closed quotes and two separators.  It then has a row for each of these lines, with
the fields of the line.  Any other text is refused, for its first line that breaks the format. -/
theorem parse_accepts_format (text : String) :
    ((∃ rows, parse text = .ok rows) ↔
      ∃ header body, content text.toList = header :: body ∧ ∀ line ∈ body, IsRowLine line) ∧
    (∀ rows, parse text = .ok rows ↔
      ∃ header body, content text.toList = header :: body ∧
        (body.map fun line => split (.ofList line)) = rows.map fun row => .ok row.fields) ∧
    ∀ fault, parse text = .error fault ↔ IsRefusedText text.toList fault :=
  ⟨exists_parse_iff, fun _ => parse_eq_ok_iff, fun _ => parse_eq_error_iff⟩

/-- Blank lines and the header count for the number, and an open quote further down does not
matter. -/
example : parse "\n \nMaker,Flavor\r\rA,B,C\x0b\"A,B\",C\n\"" =
    .error (.fieldCount 6 "\"A,B\",C" 2) := by
  rfl

end FlavorTable.Csv
