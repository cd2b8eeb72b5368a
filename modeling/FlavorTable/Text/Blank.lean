/-!
# White space

The white space of this library is the Unicode one: the control characters
that move the print position, the four separators of the information block
`1C`–`1F`, the next-line control, and every space, line and paragraph
separator. Two readers depend on it: the table reader, which skips a line
that holds nothing else, and the name reader, which strips it from both ends
of a name.

A maker's trailing padding is another matter: only the plain space `U+0020`
counts there (`FlavorTable.Text.Word`), so the end trimmer takes the class of
characters to drop as an argument.

## Main results

* `trimEnd_append_of_all` — a tail of dropped characters leaves no trace.
* `isBlankText_iff` — a text is blank when each of its characters is.
-/

namespace FlavorTable.Text

/-- The characters that count as white space. -/
def isBlank (c : Char) : Bool :=
  let n := c.toNat
  (0x09 ≤ n && n ≤ 0x0D) || (0x1C ≤ n && n ≤ 0x20) || n == 0x85 || n == 0xA0 || n == 0x1680 ||
    (0x2000 ≤ n && n ≤ 0x200A) || n == 0x2028 || n == 0x2029 || n == 0x202F || n == 0x205F ||
    n == 0x3000

/-- A list without the longest run of characters of the class `p` at its end. -/
def trimEnd (p : Char → Bool) (s : List Char) : List Char :=
  (s.reverse.dropWhile p).reverse

/-- Characters of the class at the end leave no trace. -/
theorem trimEnd_append_of_all {p : Char → Bool} (s : List Char) {tail : List Char}
    (h : ∀ c ∈ tail, p c = true) : trimEnd p (s ++ tail) = trimEnd p s := by
  have hDrop : (tail.reverse ++ s.reverse).dropWhile p = s.reverse.dropWhile p :=
    List.dropWhile_append_of_pos fun c hc => h c (List.mem_reverse.mp hc)
  rw [trimEnd, List.reverse_append, hDrop, trimEnd]

/-- A text without the white space at both ends. -/
def strip (s : String) : String :=
  .ofList (trimEnd isBlank (s.toList.dropWhile isBlank))

@[simp] theorem toList_strip (s : String) :
    (strip s).toList = trimEnd isBlank (s.toList.dropWhile isBlank) :=
  String.toList_ofList

/-- Whether a text holds white space only; the empty text does. -/
def isBlankText (s : List Char) : Bool :=
  s.all isBlank

theorem isBlankText_iff {s : List Char} : isBlankText s = true ↔ ∀ c ∈ s, isBlank c = true :=
  List.all_eq_true

theorem isBlankText_cons {c : Char} {s : List Char} :
    isBlankText (c :: s) = true ↔ isBlank c = true ∧ isBlankText s = true := by
  simp [isBlankText]

theorem isBlankText_append {s t : List Char} :
    isBlankText (s ++ t) = true ↔ isBlankText s = true ∧ isBlankText t = true := by
  simp [isBlankText]

end FlavorTable.Text
