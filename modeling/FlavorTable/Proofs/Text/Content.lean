import FlavorTable.Proofs.Text.Lines

/-!
# Lines with content

A reader of tables skips blank lines, so what counts of a text is its
*content*: the lines that are not blank, in order.  Content is indifferent to
how lines end.  In particular a newline between two texts puts their contents
one after the other, also where the first text ends in a carriage return and
the newline only completes the pair.

All that stands around the lines with content is white space, for blank lines
are and breaks are as well.

## Main results

* `exists_rest_of_lines_eq_cons` — the first line, its break and the rest.
* `content_intercalate` — the content of texts joined by newlines.
* `exists_margins_of_content` — a text with one line of content is that line
  between white space.
-/

namespace FlavorTable.Text

/-- The lines of a text that are not blank. -/
def content (s : List Char) : List (List Char) := (lines s).filter fun line => !isBlankText line

@[simp] theorem content_nil : content [] = [] := rfl

theorem isBlankText_of_breaks {s : List Char} (h : ∀ c ∈ s, isBreak c = true) :
    isBlankText s = true :=
  isBlankText_iff.mpr fun c hc => isBlank_of_isBreak (h c hc)

theorem content_of_breakFree {s : List Char} (hFree : BreakFree s)
    (hBlank : isBlankText s = false) : content s = [s] := by
  have hNil : s ≠ [] := by
    rintro rfl
    cases hBlank
  rw [content, lines_of_breakFree hFree hNil, List.filter_cons_of_pos (by rw [hBlank]; rfl),
    List.filter_nil]

/-! ## The first line -/

theorem lines_eq_nil_iff {s : List Char} : lines s = [] ↔ s = [] := by
  fun_cases lines s with
  | case1 => simp
  | case2 | case3 => simp
  | case4 c rest => simp [extendFirst_ne_nil]

/-- A text with lines is its first line, the break after it, if there is one,
and the text of the other lines. -/
theorem exists_rest_of_lines_eq_cons {s line : List Char} {others : List (List Char)}
    (h : lines s = line :: others) :
    ∃ ending rest, s = line ++ (ending ++ rest) ∧ (∀ c ∈ ending, isBreak c = true) ∧
      lines rest = others := by
  fun_induction lines s generalizing line others with
  | case1 => cases h
  | case2 rest =>
      cases h
      refine ⟨['\r', '\n'], rest, rfl, ?_, rfl⟩
      intro c hc
      simp only [List.mem_cons, List.not_mem_nil, or_false] at hc
      rcases hc with rfl | rfl <;> rfl
  | case3 c rest _ hBreak =>
      cases h
      refine ⟨[c], rest, rfl, ?_, rfl⟩
      intro d hd
      rwa [List.mem_singleton.mp hd]
  | case4 c rest _ hBreak ih =>
      cases hRest : lines rest with
      | nil =>
          rw [hRest] at h
          cases h
          rw [lines_eq_nil_iff.mp hRest]
          exact ⟨[], [], rfl, by simp, rfl⟩
      | cons first more =>
          rw [hRest] at h
          cases h
          obtain ⟨ending, tail, hSplit, hEnding, hTail⟩ := ih hRest
          exact ⟨ending, tail, by rw [hSplit]; rfl, hEnding, hTail⟩

/-! ## Texts joined by newlines -/

/-- A newline after a text ends its last line, or adds an empty one if that is
ended already. -/
theorem lines_append_newline (s t : List Char) :
    lines (s ++ '\n' :: t) = lines s ++ lines t ∨
      lines (s ++ '\n' :: t) = lines s ++ [] :: lines t := by
  fun_induction lines s with
  | case1 => exact .inr rfl
  | case2 rest ih =>
      rcases ih with hRest | hRest
      · exact .inl (congrArg ([] :: ·) hRest)
      · exact .inr (congrArg ([] :: ·) hRest)
  | case3 c rest hPair hBreak ih =>
      cases rest with
      | nil =>
          by_cases hReturn : c = '\r'
          · subst hReturn
            exact .inl rfl
          · right
            have hCons : lines (c :: '\n' :: t) = [] :: lines ('\n' :: t) :=
              lines_cons_of_break hBreak fun hEq => absurd hEq hReturn
            rw [List.singleton_append, hCons]
            rfl
      | cons d rest =>
          have hNoPair : c = '\r' → (d :: rest ++ '\n' :: t).head? ≠ some '\n' := by
            intro hReturn hHead
            subst hReturn
            have hNewline : d = '\n' := by simpa using hHead
            subst hNewline
            exact hPair rest rfl rfl
          rw [List.cons_append, lines_cons_of_break hBreak hNoPair]
          rcases ih with hRest | hRest
          · exact .inl (congrArg ([] :: ·) hRest)
          · exact .inr (congrArg ([] :: ·) hRest)
  | case4 c rest _ hBreak ih =>
      have hFree : isBreak c = false := by simpa using hBreak
      rw [List.cons_append, lines_cons_of_not_break hFree]
      cases hRest : lines rest with
      | nil =>
          rw [lines_eq_nil_iff.mp hRest]
          exact .inl rfl
      | cons first more =>
          rw [hRest] at ih
          rcases ih with hAll | hAll
          · exact .inl (by rw [hAll]; rfl)
          · exact .inr (by rw [hAll]; rfl)

theorem content_append_newline (s t : List Char) :
    content (s ++ '\n' :: t) = content s ++ content t := by
  unfold content
  rcases lines_append_newline s t with hLines | hLines
  · rw [hLines, List.filter_append]
  · rw [hLines, List.filter_append, List.filter_cons_of_neg (by simp [isBlankText])]

theorem content_intercalate (pieces : List (List Char)) :
    content (['\n'].intercalate pieces) = pieces.flatMap content := by
  induction pieces with
  | nil => rfl
  | cons piece rest ih =>
      cases rest with
      | nil => simp
      | cons next rest =>
          rw [List.intercalate_cons_cons, List.append_assoc, List.singleton_append,
            content_append_newline, ih]
          rfl

/-! ## What surrounds the content -/

theorem content_eq_of_lines {s line rest : List Char} {others : List (List Char)}
    (h : lines s = line :: others) (hRest : lines rest = others) :
    content s = (if isBlankText line then [] else [line]) ++ content rest := by
  rw [content, content, h, hRest, List.filter_cons]
  cases isBlankText line <;> rfl

theorem isBlankText_of_content_eq_nil {s : List Char} (h : content s = []) :
    isBlankText s = true := by
  generalize hLines : lines s = all
  induction all generalizing s with
  | nil =>
      rw [lines_eq_nil_iff.mp hLines]
      rfl
  | cons line others ih =>
      obtain ⟨ending, rest, rfl, hEnding, hRest⟩ := exists_rest_of_lines_eq_cons hLines
      rw [content_eq_of_lines hLines hRest, List.append_eq_nil_iff] at h
      have hLine : isBlankText line = true := by
        cases hBlank : isBlankText line with
        | true => rfl
        | false => simp [hBlank] at h
      exact isBlankText_append.mpr
        ⟨hLine, isBlankText_append.mpr ⟨isBlankText_of_breaks hEnding, ih h.2 hRest⟩⟩

/-- A text with one line of content is that line between white space. -/
theorem exists_margins_of_content {s line : List Char} (h : content s = [line]) :
    ∃ before after, s = before ++ (line ++ after) ∧ isBlankText before = true ∧
      isBlankText after = true := by
  generalize hLines : lines s = all
  induction all generalizing s with
  | nil =>
      rw [lines_eq_nil_iff.mp hLines] at h
      cases h
  | cons first others ih =>
      obtain ⟨ending, rest, rfl, hEnding, hRest⟩ := exists_rest_of_lines_eq_cons hLines
      have hBreaks := isBlankText_of_breaks hEnding
      rw [content_eq_of_lines hLines hRest] at h
      by_cases hFirst : isBlankText first = true
      · -- The first line belongs to the margin before the content.
        rw [if_pos hFirst, List.nil_append] at h
        obtain ⟨before, after, rfl, hBefore, hAfter⟩ := ih h hRest
        refine ⟨first ++ (ending ++ before), after, by simp, ?_, hAfter⟩
        exact isBlankText_append.mpr ⟨hFirst, isBlankText_append.mpr ⟨hBreaks, hBefore⟩⟩
      · -- The first line is the content, and nothing else is.
        rw [if_neg hFirst, List.singleton_append, List.cons.injEq] at h
        obtain ⟨rfl, hNone⟩ := h
        refine ⟨[], ending ++ rest, rfl, rfl, ?_⟩
        exact isBlankText_append.mpr ⟨hBreaks, isBlankText_of_content_eq_nil hNone⟩

end FlavorTable.Text
