import FlavorTable.Proofs.Text.Content

/-!
# Lines and their breaks

A text is its lines one after the other, with a break behind each of them.
There are eleven breaks to choose from, and the last line may do without one.

The lines cannot always be told from the text.  An empty line ended by a
newline, behind a line ended by a carriage return, leaves no trace: the two
characters are one break.  Nor does an empty last line without a break.  But
only blank lines are lost in this way.  The content of the text is that of its
lines, whatever the breaks, and blank lines can be put in and taken out.

## Main results

* `content_append_break` — a break puts two contents one after the other.
* `Concatenates.content_eq` — the content of lines with any breaks.
* `concatenates_lines` — every text is its physical lines with some breaks.
* `SameButBlank.content_eq` — blank lines do not count.
-/

namespace FlavorTable.Text

/-- The breaks that end a line: one character each, and the pair that counts as one. -/
def breaks : List (List Char) := ['\r', '\n'] :: breakChars.map fun c => [c]

/-- The text is the lines one after the other, each with a break behind it; the last one may
stand without. -/
inductive Concatenates : List (List Char) → List Char → Prop where
  | nil : Concatenates [] []
  | last {line : List Char} (hFree : BreakFree line) : Concatenates [line] line
  | ended {line ending rest : List Char} {others : List (List Char)} (hFree : BreakFree line)
      (hEnding : ending ∈ breaks) (hRest : Concatenates others rest) :
      Concatenates (line :: others) (line ++ (ending ++ rest))

/-- The sequences of lines differ by blank lines that one of them has and the other has not. -/
inductive SameButBlank : List (List Char) → List (List Char) → Prop where
  | nil : SameButBlank [] []
  | both {a b : List (List Char)} (line : List Char) (h : SameButBlank a b) :
      SameButBlank (line :: a) (line :: b)
  | left {a b : List (List Char)} {blank : List Char} (hBlank : isBlankText blank = true)
      (h : SameButBlank a b) : SameButBlank (blank :: a) b
  | right {a b : List (List Char)} {blank : List Char} (hBlank : isBlankText blank = true)
      (h : SameButBlank a b) : SameButBlank a (blank :: b)

theorem mem_breaks_iff {ending : List Char} :
    ending ∈ breaks ↔ ending = ['\r', '\n'] ∨ ∃ c, isBreak c = true ∧ ending = [c] := by
  have hSwap : ∀ c, [c] = ending ↔ ending = [c] := fun _ => eq_comm
  simp only [breaks, List.mem_cons, List.mem_map, isBreak_iff, hSwap]

/-! ## One line and its break -/

theorem content_of_free_line {line : List Char} (hFree : BreakFree line) :
    content line = [line].filter fun line => !isBlankText line := by
  cases line with
  | nil => rfl
  | cons c rest => rw [content, lines_of_breakFree hFree (List.cons_ne_nil c rest)]

/-- A break ends a line also where it is the first half of a pair: the line that the second half
would end is empty. -/
theorem content_append_break {line : List Char} (hFree : BreakFree line) {c : Char}
    (hBreak : isBreak c = true) (rest : List Char) :
    content (line ++ c :: rest) = content line ++ content rest := by
  have hSingle : ∀ {rest : List Char}, (c = '\r' → rest.head? ≠ some '\n') →
      content (line ++ c :: rest) = content line ++ content rest := by
    intro rest hPair
    rw [content, lines_append_break hFree hBreak hPair, content_of_free_line hFree, content,
      ← List.filter_append, List.singleton_append]
  by_cases hPair : c = '\r' ∧ rest.head? = some '\n'
  · obtain ⟨rfl, hHead⟩ := hPair
    obtain ⟨tail, rfl⟩ := List.head?_eq_some_iff.mp hHead
    have hReturn : content (line ++ ['\r']) = content line := by
      rw [hSingle (by simp), content_nil, List.append_nil]
    have hNewline : content ('\n' :: tail) = content tail := content_append_newline [] tail
    calc content (line ++ '\r' :: '\n' :: tail)
      _ = content ((line ++ ['\r']) ++ '\n' :: tail) := by
          rw [List.append_assoc, List.singleton_append]
      _ = content line ++ content ('\n' :: tail) := by
          rw [content_append_newline, hReturn, hNewline]
  · exact hSingle fun hReturn hHead => hPair ⟨hReturn, hHead⟩

theorem content_append_ending {line ending : List Char} (hFree : BreakFree line)
    (hEnding : ending ∈ breaks) (rest : List Char) :
    content (line ++ (ending ++ rest)) = content line ++ content rest := by
  rcases mem_breaks_iff.mp hEnding with rfl | ⟨c, hBreak, rfl⟩
  · have hNewline : content ('\n' :: rest) = content rest := content_append_newline [] rest
    have hReturn : content (line ++ '\r' :: '\n' :: rest) =
        content line ++ content ('\n' :: rest) := content_append_break hFree rfl _
    rw [← hNewline, ← hReturn]
    rfl
  · exact content_append_break hFree hBreak rest

/-! ## Texts and their lines -/

/-- Whatever the breaks, the content is that of the lines. -/
theorem Concatenates.content_eq {all : List (List Char)} {s : List Char}
    (h : Concatenates all s) : content s = all.filter fun line => !isBlankText line := by
  induction h with
  | nil => rfl
  | last hFree => exact content_of_free_line hFree
  | ended hFree hEnding _ ih =>
      rw [content_append_ending hFree hEnding, ih, content_of_free_line hFree,
        ← List.filter_append, List.singleton_append]

/-- A character that is no break goes to the first line. -/
theorem Concatenates.extend {all : List (List Char)} {s : List Char} {c : Char}
    (h : Concatenates all s) (hFree : isBreak c = false) :
    Concatenates (extendFirst c all) (c :: s) := by
  have hCons : ∀ {line : List Char}, BreakFree line → BreakFree (c :: line) :=
    fun hLine => List.forall_mem_cons.mpr ⟨hFree, hLine⟩
  cases h with
  | nil => exact .last (hCons (List.forall_mem_nil _))
  | last hLine => exact .last (hCons hLine)
  | ended hLine hEnding hRest => exact .ended (hCons hLine) hEnding hRest

/-- Every text is its physical lines, with the breaks that it has. -/
theorem concatenates_lines (s : List Char) : Concatenates (lines s) s := by
  have hEmpty : BreakFree [] := List.forall_mem_nil _
  fun_induction lines s with
  | case1 => exact .nil
  | case2 rest ih => exact .ended hEmpty (mem_breaks_iff.mpr (.inl rfl)) ih
  | case3 c rest _ hBreak ih => exact .ended hEmpty (mem_breaks_iff.mpr (.inr ⟨c, hBreak, rfl⟩)) ih
  | case4 c rest _ hBreak ih => exact ih.extend (by simpa using hBreak)

theorem SameButBlank.filter_eq {a b : List (List Char)} (h : SameButBlank a b) :
    (a.filter fun line => !isBlankText line) = b.filter fun line => !isBlankText line := by
  induction h with
  | nil => rfl
  | both line _ ih => rw [List.filter_cons, List.filter_cons, ih]
  | left hBlank _ ih => rw [List.filter_cons_of_neg (by simp [hBlank]), ih]
  | right hBlank _ ih => rw [List.filter_cons_of_neg (by simp [hBlank]), ih]

/-- Texts with the same lines have the same content, whatever the breaks and the blank lines. -/
theorem SameButBlank.content_eq {a b : List (List Char)} {s t : List Char}
    (h : SameButBlank a b) (hs : Concatenates a s) (ht : Concatenates b t) :
    content s = content t := by
  rw [hs.content_eq, ht.content_eq, h.filter_eq]

end FlavorTable.Text
