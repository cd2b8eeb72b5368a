import FlavorTable.Proofs.Csv.RoundTrip

/-!
# Tables with other delimiters

A table can be written with any character between its fields, but what is
quoted depends on commas and quotes alone.  A field that holds the delimiter
and is not quoted looks like two fields, and two tables are then written alike.

Nothing else goes wrong.  If every field with a delimiter in it is *guarded*,
that is, quoted for another reason, a line can be read from left to right
without guessing: a field that begins with a quote ends at the first quote that
is not followed by another one, and any other field ends before the first
delimiter.  So the fields of a line, the lines of a text and with them the rows
of a table can be recovered.

## Main results

* `nextField_quoteField` — reading one field and what is left of the line.
* `writeRow_injective` — guarded rows are told apart by their lines.
* `write_determines_rows` — which tables are told apart by their texts.
-/

namespace FlavorTable

namespace Csv

open FlavorTable.Text

/-- A field that holds the delimiter holds a comma or a quote as well, for which it is quoted. -/
def Guarded (delimiter : Char) (field : String) : Prop :=
  delimiter ∈ field.toList → ',' ∈ field.toList ∨ '"' ∈ field.toList

instance (delimiter : Char) (field : String) : Decidable (Guarded delimiter field) :=
  inferInstanceAs (Decidable (_ → _))

/-- With commas between the fields every field is guarded. -/
theorem guarded_comma (field : String) : Guarded ',' field := fun hComma => .inl hComma

/-! ## Reading a field -/

/-- The rest of a quoted field, and what follows its closing quote. -/
def unquote : List Char → List Char × List Char
  | [] => ([], [])
  | '"' :: '"' :: rest => ('"' :: (unquote rest).1, (unquote rest).2)
  | c :: rest => if c = '"' then ([], rest) else (c :: (unquote rest).1, (unquote rest).2)

/-- The first field of a line, and what follows it. -/
def nextField (delimiter : Char) : List Char → List Char × List Char
  | '"' :: rest => unquote rest
  | line => (line.takeWhile (· ≠ delimiter), line.dropWhile (· ≠ delimiter))

theorem unquote_closing {rest : List Char} (h : rest.head? ≠ some '"') :
    unquote ('"' :: rest) = ([], rest) := by
  cases rest with
  | nil => rfl
  | cons c rest =>
      have hQuote : c ≠ '"' := by simpa using h
      simp [unquote, hQuote]

theorem unquote_cons {c : Char} (h : c ≠ '"') (rest : List Char) :
    unquote (c :: rest) = (c :: (unquote rest).1, (unquote rest).2) := by
  simp [unquote, h]

/-- A quoted field ends at its closing quote, whatever quotes it holds. -/
theorem unquote_doubled (s : List Char) {rest : List Char} (h : rest.head? ≠ some '"') :
    unquote (doubled s ++ '"' :: rest) = (s, rest) := by
  induction s with
  | nil => exact unquote_closing h
  | cons c s ih =>
      by_cases hQuote : c = '"'
      · subst hQuote
        have hPair : doubled ('"' :: s) ++ '"' :: rest =
            '"' :: '"' :: (doubled s ++ '"' :: rest) := rfl
        rw [hPair, unquote, ih]
      · rw [doubled_cons hQuote, List.cons_append, unquote_cons hQuote, ih]

/-- A field that does not begin with a quote ends before the delimiter. -/
theorem nextField_of_plain {delimiter : Char} {s rest : List Char} (hQuote : '"' ∉ s)
    (hDelimiter : delimiter ∉ s) (hRest : ∀ c ∈ rest.head?, c = delimiter)
    (hApart : delimiter ≠ '"') : nextField delimiter (s ++ rest) = (s, rest) := by
  have hLine : nextField delimiter (s ++ rest) =
      ((s ++ rest).takeWhile (· ≠ delimiter), (s ++ rest).dropWhile (· ≠ delimiter)) := by
    rw [nextField]
    rintro tail hTail
    cases s with
    | nil =>
        rw [List.nil_append] at hTail
        have hHead := hRest '"' (by rw [hTail]; rfl)
        exact hApart hHead.symm
    | cons c s =>
        have hHead : c = '"' := (List.cons.inj hTail).1
        exact hQuote (hHead ▸ List.mem_cons_self)
  have hKept : ∀ c ∈ s, decide (c ≠ delimiter) = true := by
    intro c hc
    refine decide_eq_true ?_
    rintro rfl
    exact hDelimiter hc
  rw [hLine, List.takeWhile_append_of_pos hKept, List.dropWhile_append_of_pos hKept]
  cases rest with
  | nil => simp
  | cons c rest =>
      have hHead : c = delimiter := hRest c rfl
      simp [hHead]

/-- Reading a written field that is guarded gives the field, and what follows it on the line. -/
theorem nextField_quoteField {delimiter : Char} (hApart : delimiter ≠ '"') {s : String}
    (hGuarded : Guarded delimiter s) {rest : List Char} (hRest : ∀ c ∈ rest.head?, c = delimiter) :
    nextField delimiter ((quoteField s).toList ++ rest) = (s.toList, rest) := by
  rw [toList_quoteField]
  by_cases hQuotes : needsQuotes s = true
  · have hNoQuote : rest.head? ≠ some '"' := by
      intro hHead
      exact hApart (hRest '"' hHead).symm
    rw [if_pos hQuotes, List.cons_append, List.append_assoc, List.singleton_append]
    exact unquote_doubled s.toList hNoQuote
  · have hPlain : ¬(',' ∈ s.toList ∨ '"' ∈ s.toList) := fun hHolds =>
      hQuotes (needsQuotes_iff.mpr hHolds)
    rw [if_neg hQuotes]
    apply nextField_of_plain
    · exact fun hQuote => hPlain (.inr hQuote)
    · exact fun hDelimiter => hPlain (hGuarded hDelimiter)
    · exact hRest
    · exact hApart

/-! ## Rows and tables -/

section Guarded

variable {delimiter : Char}

/-- Written fields that are guarded are told apart, and so is what follows them. -/
theorem quoteField_append_inj (hApart : delimiter ≠ '"') {s t : String}
    (hs : Guarded delimiter s) (ht : Guarded delimiter t) {left right : List Char}
    (hLeft : ∀ c ∈ left.head?, c = delimiter) (hRight : ∀ c ∈ right.head?, c = delimiter)
    (h : (quoteField s).toList ++ left = (quoteField t).toList ++ right) :
    s = t ∧ left = right := by
  have hRead := congrArg (nextField delimiter) h
  rw [nextField_quoteField hApart hs hLeft, nextField_quoteField hApart ht hRight,
    Prod.mk.injEq] at hRead
  exact ⟨String.toList_inj.mp hRead.1, hRead.2⟩

/-- Guarded rows are told apart by their lines. -/
theorem writeRow_injective (hApart : delimiter ≠ '"') {a b : Row}
    (ha : ∀ field ∈ a.fields, Guarded delimiter field)
    (hb : ∀ field ∈ b.fields, Guarded delimiter field)
    (h : (writeRow (.singleton delimiter) a).toList = (writeRow (.singleton delimiter) b).toList) :
    a = b := by
  have hNext : ∀ rest, ∀ c ∈ (delimiter :: rest).head?, c = delimiter := by simp
  have hEnd : ∀ c ∈ ([] : List Char).head?, c = delimiter := by simp
  obtain ⟨maker, flavor, baseFlavor⟩ := a
  obtain ⟨maker', flavor', baseFlavor'⟩ := b
  simp only [Row.fields, List.forall_mem_cons] at ha hb
  rw [toList_writeRow_singleton, toList_writeRow_singleton] at h
  obtain ⟨rfl, hFlavors⟩ := quoteField_append_inj hApart ha.1 hb.1 (hNext _) (hNext _) h
  obtain ⟨rfl, hBases⟩ := quoteField_append_inj hApart ha.2.1 hb.2.1 (hNext _) (hNext _)
    (List.cons.inj hFlavors).2
  have hLast : (quoteField baseFlavor).toList ++ [] = (quoteField baseFlavor').toList ++ [] := by
    rw [(List.cons.inj hBases).2]
  obtain ⟨rfl, -⟩ := quoteField_append_inj hApart ha.2.2.1 hb.2.2.1 hEnd hEnd hLast
  rfl

/-- Lists are told apart by a function that tells their elements apart. -/
theorem eq_of_map_eq_map {α β : Type} {f : α → β} {a b : List α}
    (hApart : ∀ x ∈ a, ∀ y ∈ b, f x = f y → x = y) (h : a.map f = b.map f) : a = b := by
  induction a generalizing b with
  | nil => exact (List.map_eq_nil_iff.mp h.symm).symm
  | cons x rest ih =>
      cases b with
      | nil => cases h
      | cons y others =>
          obtain ⟨hFirst, hRest⟩ := List.cons.inj h
          have hEq : x = y := hApart x List.mem_cons_self y List.mem_cons_self hFirst
          have hTail : rest = others := by
            apply ih _ hRest
            intro u hu v hv
            exact hApart u (List.mem_cons_of_mem x hu) v (List.mem_cons_of_mem y hv)
          rw [hEq, hTail]

/-- Tables of guarded rows without line breaks are told apart by their texts. -/
theorem sorted_eq_of_write_eq (hApart : delimiter ≠ '"') (hBreak : isBreak delimiter = false)
    {a b : List Row} (ha : ∀ row ∈ a, row.BreakFree ∧ ∀ field ∈ row.fields, Guarded delimiter field)
    (hb : ∀ row ∈ b, row.BreakFree ∧ ∀ field ∈ row.fields, Guarded delimiter field)
    (h : write a (.singleton delimiter) = write b (.singleton delimiter)) :
    Row.sorted a = Row.sorted b := by
  have hLines := congrArg (fun text => lines text.toList) h
  simp only [lines_write_singleton hBreak fun row hRow => (ha row hRow).1,
    lines_write_singleton hBreak fun row hRow => (hb row hRow).1, List.map_cons] at hLines
  apply eq_of_map_eq_map _ (List.cons.inj hLines).2
  intro first hFirst second hSecond
  exact writeRow_injective hApart (ha first ((Row.sorted_perm a).mem_iff.mp hFirst)).2
    (hb second ((Row.sorted_perm b).mem_iff.mp hSecond)).2

end Guarded

/-! ## Rows that are written alike -/

/-- A delimiter that is no reason to quote looks the same at the end of the maker and at the
beginning of the flavor. -/
theorem write_confuses {delimiter : Char} (hComma : delimiter ≠ ',') (hQuote : delimiter ≠ '"') :
    write [⟨.singleton delimiter, "", ""⟩] (.singleton delimiter) =
      write [⟨"", .singleton delimiter, ""⟩] (.singleton delimiter) := by
  have hPlain : quoteField (.singleton delimiter) = .singleton delimiter := by
    simp [quoteField, needsQuotes, hComma, hQuote]
  have hEmpty : quoteField "" = "" := rfl
  have hRows : writeRow (.singleton delimiter) ⟨.singleton delimiter, "", ""⟩ =
      writeRow (.singleton delimiter) ⟨"", .singleton delimiter, ""⟩ := by
    apply String.toList_inj.mp
    rw [toList_writeRow_singleton, toList_writeRow_singleton, hPlain, hEmpty]
    simp
  have hSorted : ∀ row : Row, Row.sorted [row] = [row] := fun _ => rfl
  simp only [write, hSorted, List.map_cons, List.map_nil, hRows]

/-- **What a delimiter keeps apart.** Take a delimiter that is neither a double
quote nor a line break, and tables without line breaks in which each field
that holds the delimiter holds a comma or a quote as well.  Two of them with
the same text have the same rows in ascending order.  For the comma the
condition on the fields is void.  For every other delimiter it is needed: two
different rows without line breaks are written alike. -/
theorem write_determines_rows {delimiter : Char} (hQuote : delimiter ≠ '"')
    (hBreak : delimiter ∉ breakChars) :
    (∀ a b : List Row,
      (∀ row ∈ a, row.BreakFree ∧ ∀ field ∈ row.fields, Guarded delimiter field) →
      (∀ row ∈ b, row.BreakFree ∧ ∀ field ∈ row.fields, Guarded delimiter field) →
      write a (.singleton delimiter) = write b (.singleton delimiter) →
      Row.sorted a = Row.sorted b) ∧
    (delimiter = ',' → ∀ field, Guarded delimiter field) ∧
    (delimiter ≠ ',' → ∃ a b : Row, a ≠ b ∧ a.BreakFree ∧ b.BreakFree ∧
      write [a] (.singleton delimiter) = write [b] (.singleton delimiter)) := by
  have hFree : isBreak delimiter = false := by
    rw [← Bool.not_eq_true, isBreak_iff]
    exact hBreak
  refine ⟨?_, ?_, ?_⟩
  · intro a b ha hb hWrite
    exact sorted_eq_of_write_eq hQuote hFree ha hb hWrite
  · rintro rfl field
    exact guarded_comma field
  · intro hComma
    refine ⟨⟨.singleton delimiter, "", ""⟩, ⟨"", .singleton delimiter, ""⟩, ?_, ?_, ?_,
      write_confuses hComma hQuote⟩
    · intro hEq
      have hMaker := congrArg Row.maker hEq
      simp at hMaker
    · simp [Row.BreakFree, Row.fields, BreakFree, hFree]
    · simp [Row.BreakFree, Row.fields, BreakFree, hFree]

/-- Semicolons keep apart two rows that are quoted for their commas, but not all rows. -/
theorem write_determines_rows_semicolon :
    write [⟨"Ben, Jerry; Co", "Mint", "Misc"⟩] ";" ≠
        write [⟨"Ben, Jerry", " Co", "Mint;Misc, "⟩] ";" ∧
      ∃ a b : Row, a ≠ b ∧ write [a] ";" = write [b] ";" := by
  obtain ⟨hApart, -, hAlike⟩ := write_determines_rows (show ';' ≠ '"' by decide) (by decide)
  refine ⟨fun hWrite => ?_, ?_⟩
  · have hSorted := hApart _ _ (by decide) (by decide) hWrite
    exact absurd hSorted (by decide)
  · obtain ⟨a, b, hNe, -, -, hWrite⟩ := hAlike (by decide)
    exact ⟨a, b, hNe, hWrite⟩

end Csv

end FlavorTable
