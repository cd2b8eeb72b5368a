import FlavorTable.Text.Blank
import FlavorTable.Text.Pieces

/-!
# Physical lines

A text is cut into physical lines at eleven line breaks: ten single
characters, and the pair `"\r\n"`, which is one break and not two. A break at
the very end of the text opens no further line, so `"a\n"` and `"a"` have the
same one line and the empty text has none.

Files are read with their newlines unified first: `"\r\n"` and a lone `"\r"`
become `"\n"`. The other breaks stay as they are.

## Main results

* `isBlank_of_isBreak` — every break character is white space.
* `isBreak_eq_false_of_mem_lines` — no line holds a break character.
-/

namespace FlavorTable.Text

/-- The characters that end a line. -/
def isBreak (c : Char) : Bool :=
  let n := c.toNat
  (0x0A ≤ n && n ≤ 0x0D) || (0x1C ≤ n && n ≤ 0x1E) || n == 0x85 || n == 0x2028 || n == 0x2029

theorem isBlank_of_isBreak {c : Char} (h : isBreak c = true) : isBlank c = true := by
  simp only [isBreak, isBlank, Bool.or_eq_true, Bool.and_eq_true, decide_eq_true_eq,
    beq_iff_eq] at h ⊢
  omega

/-- The physical lines of a text, without their breaks. -/
def lines : List Char → List (List Char)
  | [] => []
  | '\r' :: '\n' :: rest => [] :: lines rest
  | c :: rest => if isBreak c then [] :: lines rest else extendFirst c (lines rest)

@[simp] theorem lines_nil : lines [] = [] := rfl

/-- No physical line holds a break character. -/
theorem isBreak_eq_false_of_mem_lines {s line : List Char} (h : line ∈ lines s) :
    ∀ c ∈ line, isBreak c = false := by
  fun_induction lines s generalizing line with
  | case1 => simp at h
  | case2 rest ih =>
      rcases List.mem_cons.mp h with rfl | hMem
      · simp
      · exact ih hMem
  | case3 c rest _ hBreak ih =>
      rcases List.mem_cons.mp h with rfl | hMem
      · simp
      · exact ih hMem
  | case4 c rest _ hBreak ih =>
      have hHead : isBreak c = false := by simpa using hBreak
      rcases mem_extendFirst h with hMem | rfl | ⟨old, hOld, rfl⟩
      · exact ih hMem
      · simpa using hHead
      · intro d hd
        rcases List.mem_cons.mp hd with rfl | hd
        · exact hHead
        · exact ih hOld d hd

/-- A text with every `"\r\n"` and every lone `"\r"` written as `"\n"`. -/
def unifyNewlines : List Char → List Char
  | [] => []
  | '\r' :: '\n' :: rest => '\n' :: unifyNewlines rest
  | c :: rest => (if c = '\r' then '\n' else c) :: unifyNewlines rest

end FlavorTable.Text
