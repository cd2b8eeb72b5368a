import FlavorTable.Csv.Split
import FlavorTable.Proofs.Text.Content

/-!
# Counting separators

A line has one field more than it has *separators*, that is, commas outside of
quotes.  To count them in a part of a text one has to know whether the part
begins inside quotes, and then the counts of parts add up.

A text that is cut into lines is cut without regard to quotes.  But if each of
the lines can be read on its own, each leaves the reader outside of quotes, so
every line begins where the reader of the whole text is outside of quotes as
well.  Then no separator is gained or lost by the cut, and blank lines have
none.

## Main results

* `length_of_scan` — fields against separators.
* `separators_append` — the counts of two parts add up.
* `separators_eq_mul_content` — the separators of a text whose lines can be read
  are those of its content.
-/

namespace FlavorTable.Csv

open FlavorTable.Text

/-- Whether the reader is inside quotes after one more character. -/
def turn (inside : Bool) (c : Char) : Bool := if c = '"' then !inside else inside

/-- Whether the reader is inside quotes after a text. -/
def insideAfter (inside : Bool) (s : List Char) : Bool := s.foldl turn inside

/-- The number of commas outside of quotes in a text that begins inside quotes or not. -/
def separators : Bool → List Char → Nat
  | _, [] => 0
  | inside, c :: rest =>
      (if c = ',' ∧ inside = false then 1 else 0) + separators (turn inside c) rest

@[simp] theorem insideAfter_nil (inside : Bool) : insideAfter inside [] = inside := rfl

@[simp] theorem insideAfter_cons (inside : Bool) (c : Char) (rest : List Char) :
    insideAfter inside (c :: rest) = insideAfter (turn inside c) rest := rfl

theorem separators_append (inside : Bool) (s t : List Char) :
    separators inside (s ++ t) = separators inside s + separators (insideAfter inside s) t := by
  induction s generalizing inside with
  | nil => simp [separators]
  | cons c rest ih => simp [separators, ih, Nat.add_assoc]

/-- A line that can be read ends outside of quotes and has one field more than separators. -/
theorem length_of_scan {inside : Bool} {line : List Char} {fields : List (List Char)}
    (h : scan inside line = some fields) :
    insideAfter inside line = false ∧ fields.length = separators inside line + 1 := by
  fun_induction scan inside line generalizing fields with
  | case1 =>
      cases h
      exact ⟨rfl, rfl⟩
  | case2 => cases h
  | case3 rest ih => simpa [separators, turn] using ih h
  | case4 rest hQuote ih =>
      obtain ⟨pieces, hRest, rfl⟩ := Option.map_eq_some_iff.mp h
      obtain ⟨hOutside, hLength⟩ := ih hRest
      refine ⟨by simpa [turn] using hOutside, ?_⟩
      simp [separators, turn, hLength]
      omega
  | case5 c rest hQuote hComma ih =>
      obtain ⟨pieces, hRest, rfl⟩ := Option.map_eq_some_iff.mp h
      rw [length_extendFirst (ne_nil_of_scan hRest)]
      simpa [separators, turn, hQuote, hComma] using ih hRest
  | case6 rest ih =>
      obtain ⟨pieces, hRest, rfl⟩ := Option.map_eq_some_iff.mp h
      rw [length_extendFirst (ne_nil_of_scan hRest)]
      simpa [separators, turn] using ih hRest
  | case7 rest _ ih => simpa [separators, turn] using ih h
  | case8 c rest _ hQuote ih =>
      obtain ⟨pieces, hRest, rfl⟩ := Option.map_eq_some_iff.mp h
      rw [length_extendFirst (ne_nil_of_scan hRest)]
      simpa [separators, turn, hQuote] using ih hRest

/-! ## White space -/

theorem ne_of_isBlank {c : Char} (h : isBlank c = true) : c ≠ '"' ∧ c ≠ ',' := by
  constructor <;> rintro rfl <;> cases h

theorem turn_of_isBlank {c : Char} (h : isBlank c = true) (inside : Bool) :
    turn inside c = inside := by
  simp [turn, ne_of_isBlank h]

theorem insideAfter_of_isBlankText {s : List Char} (h : isBlankText s = true) (inside : Bool) :
    insideAfter inside s = inside := by
  induction s with
  | nil => rfl
  | cons c rest ih =>
      obtain ⟨hBlank, hRest⟩ := isBlankText_cons.mp h
      rw [insideAfter_cons, turn_of_isBlank hBlank, ih hRest]

theorem separators_of_isBlankText {s : List Char} (h : isBlankText s = true) (inside : Bool) :
    separators inside s = 0 := by
  induction s with
  | nil => rfl
  | cons c rest ih =>
      obtain ⟨hBlank, hRest⟩ := isBlankText_cons.mp h
      simp [separators, turn_of_isBlank hBlank, ih hRest, ne_of_isBlank hBlank]

/-! ## Lines -/

/-- If each line with content can be read and has `n` separators, the text has `n` for
each of these lines. -/
theorem separators_eq_mul_content {s : List Char} {n : Nat}
    (h : ∀ line ∈ content s, insideAfter false line = false ∧ separators false line = n) :
    separators false s = (content s).length * n := by
  generalize hLines : lines s = all
  induction all generalizing s with
  | nil =>
      rw [lines_eq_nil_iff.mp hLines]
      simp [separators]
  | cons line others ih =>
      obtain ⟨ending, rest, rfl, hEnding, hRest⟩ := exists_rest_of_lines_eq_cons hLines
      have hBreaks := isBlankText_of_breaks hEnding
      rw [content_eq_of_lines hLines hRest] at h ⊢
      have hOthers := ih (fun other hOther => h other (List.mem_append_right _ hOther)) hRest
      have hSplit : separators false (line ++ (ending ++ rest)) =
          separators false line + separators (insideAfter false line) rest := by
        rw [separators_append, separators_append, separators_of_isBlankText hBreaks,
          insideAfter_of_isBlankText hBreaks, Nat.zero_add]
      by_cases hBlank : isBlankText line = true
      · rw [hSplit, separators_of_isBlankText hBlank, insideAfter_of_isBlankText hBlank, hOthers]
        simp [hBlank]
      · obtain ⟨hOutside, hCount⟩ := h line (by simp [hBlank])
        rw [hSplit, hOutside, hCount, hOthers, if_neg hBlank, List.singleton_append,
          List.length_cons, Nat.succ_mul, Nat.add_comm]

end FlavorTable.Csv
