import FlavorTable.Text.Lines

/-!
# Reading written lines back

A reader that works from the right puts one character after the other in
front of its first piece.  Over a stretch of text without boundaries this is
`prependFirst`, and with it the physical lines of a text can be read off its
parts: a stretch without breaks stays together, and a break ends it.

## Main results

* `isBreak_iff` — the ten characters that end a line.
* `lines_append_break` — a break ends the line before it.
* `lines_intercalate` — lines joined by newlines are read back.
* `lines_unifyNewlines` — unifying newlines changes no line.
-/

namespace FlavorTable.Text

/-! ## Texts in front of pieces -/

/-- A text put in front of the first piece, which it opens if there is none. -/
def prependFirst (s : List Char) (pieces : List (List Char)) : List (List Char) :=
  s.foldr extendFirst pieces

theorem prependFirst_cons_left (c : Char) (s : List Char) (pieces : List (List Char)) :
    prependFirst (c :: s) pieces = extendFirst c (prependFirst s pieces) := rfl

@[simp] theorem prependFirst_cons (s piece : List Char) (rest : List (List Char)) :
    prependFirst s (piece :: rest) = (s ++ piece) :: rest := by
  induction s with
  | nil => rfl
  | cons c s ih => rw [prependFirst_cons_left, ih]; rfl

theorem prependFirst_of_ne_nil {s : List Char} (h : s ≠ []) : prependFirst s [] = [s] := by
  obtain ⟨c, rest, rfl⟩ := List.exists_cons_of_ne_nil h
  cases rest with
  | nil => rfl
  | cons d rest =>
      rw [prependFirst_cons_left, prependFirst_of_ne_nil (List.cons_ne_nil d rest)]
      rfl

/-! ## Lines -/

/-- The characters that end a line, one by one. -/
def breakChars : List Char :=
  ['\n', '\x0b', '\x0c', '\r', '\x1c', '\x1d', '\x1e', '\x85', '\u2028', '\u2029']

theorem isBreak_iff {c : Char} : isBreak c = true ↔ c ∈ breakChars := by
  constructor
  · intro h
    have hCode : c.toNat ∈ breakChars.map Char.toNat := by
      simp only [isBreak, Bool.or_eq_true, Bool.and_eq_true, decide_eq_true_eq, beq_iff_eq] at h
      show c.toNat ∈ [0x0A, 0x0B, 0x0C, 0x0D, 0x1C, 0x1D, 0x1E, 0x85, 0x2028, 0x2029]
      simp only [List.mem_cons, List.not_mem_nil, or_false]
      omega
    obtain ⟨d, hd, hEq⟩ := List.mem_map.mp hCode
    exact Char.toNat_inj.mp hEq ▸ hd
  · intro h
    simp only [breakChars, List.mem_cons, List.not_mem_nil, or_false] at h
    rcases h with rfl | rfl | rfl | rfl | rfl | rfl | rfl | rfl | rfl | rfl <;> rfl

/-- A text without line breaks. -/
def BreakFree (s : List Char) : Prop := ∀ c ∈ s, isBreak c = false

-- The instance is named because the characters are also finitely many.
instance (s : List Char) : Decidable (BreakFree s) :=
  List.decidableBAll (fun c => isBreak c = false) s

theorem lines_cons_of_not_break {c : Char} (h : isBreak c = false) (rest : List Char) :
    lines (c :: rest) = extendFirst c (lines rest) := by
  rw [lines, h]
  · rfl
  · rintro tail rfl
    cases h

/-- A break ends a line.  A carriage return before a newline is no break of its own. -/
theorem lines_cons_of_break {c : Char} (h : isBreak c = true) {rest : List Char}
    (hPair : c = '\r' → rest.head? ≠ some '\n') : lines (c :: rest) = [] :: lines rest := by
  rw [lines, h]
  · rfl
  · rintro tail hReturn rfl
    exact hPair hReturn rfl

/-- A stretch without breaks stays together. -/
theorem lines_append {s : List Char} (h : BreakFree s) (rest : List Char) :
    lines (s ++ rest) = prependFirst s (lines rest) := by
  induction s with
  | nil => rfl
  | cons c s ih =>
      have hHead : isBreak c = false := h c List.mem_cons_self
      have hTail : BreakFree s := fun d hd => h d (List.mem_cons_of_mem c hd)
      rw [List.cons_append, lines_cons_of_not_break hHead, ih hTail, prependFirst_cons_left]

theorem lines_append_break {s : List Char} (h : BreakFree s) {c : Char} (hBreak : isBreak c = true)
    {rest : List Char} (hPair : c = '\r' → rest.head? ≠ some '\n') :
    lines (s ++ c :: rest) = s :: lines rest := by
  rw [lines_append h, lines_cons_of_break hBreak hPair, prependFirst_cons, List.append_nil]

theorem lines_of_breakFree {s : List Char} (h : BreakFree s) (hNil : s ≠ []) : lines s = [s] := by
  have hAppend := lines_append h []
  rw [List.append_nil, lines_nil, prependFirst_of_ne_nil hNil] at hAppend
  exact hAppend

/-- Lines that are joined by newlines are read back, unless one is empty. -/
theorem lines_intercalate {pieces : List (List Char)} (hFree : ∀ piece ∈ pieces, BreakFree piece)
    (hNil : ∀ piece ∈ pieces, piece ≠ []) : lines (['\n'].intercalate pieces) = pieces := by
  induction pieces with
  | nil => rfl
  | cons piece rest ih =>
      have hHead : BreakFree piece := hFree piece List.mem_cons_self
      cases rest with
      | nil =>
          rw [List.intercalate_singleton]
          exact lines_of_breakFree hHead (hNil piece List.mem_cons_self)
      | cons next rest =>
          have hRest := ih (fun other hOther => hFree other (List.mem_cons_of_mem _ hOther))
            (fun other hOther => hNil other (List.mem_cons_of_mem _ hOther))
          rw [List.intercalate_cons_cons, List.append_assoc, List.singleton_append,
            lines_append_break hHead rfl (fun hReturn => by cases hReturn), hRest]

/-! ## Unified newlines -/

/-- Unifying newlines moves no line: a carriage return is a break as much as the newline that
takes its place, and the pair of both is one break. -/
theorem lines_unifyNewlines (s : List Char) : lines (unifyNewlines s) = lines s := by
  fun_induction unifyNewlines s with
  | case1 => rfl
  | case2 rest ih => exact congrArg ([] :: ·) ih
  | case3 c rest hPair ih =>
      by_cases hReturn : c = '\r'
      · subst hReturn
        have hNoPair : '\r' = '\r' → rest.head? ≠ some '\n' := by
          intro _ hHead
          obtain ⟨tail, rfl⟩ := List.head?_eq_some_iff.mp hHead
          exact hPair tail rfl rfl
        rw [if_pos rfl, lines_cons_of_break rfl (fun hEq => by cases hEq),
          lines_cons_of_break rfl hNoPair, ih]
      · rw [if_neg hReturn]
        cases hBreak : isBreak c with
        | true =>
            rw [lines_cons_of_break hBreak fun hEq => absurd hEq hReturn,
              lines_cons_of_break hBreak fun hEq => absurd hEq hReturn, ih]
        | false => rw [lines_cons_of_not_break hBreak, lines_cons_of_not_break hBreak, ih]

end FlavorTable.Text
