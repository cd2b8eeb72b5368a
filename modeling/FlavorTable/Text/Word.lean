import FlavorTable.Text.Blank

/-!
# Words and names

Two readings of one line of text. A *word* is what stands between single
plain spaces, and only the last word of a maker's name matters: trailing
plain spaces are dropped first, so padding behind a word does not hide it. A
text of plain spaces only has an empty last word. A *name list* is written with
commas; blank entries are skipped and each name loses the white space around it.

## Main results

* `lastWord_append_space` — padding does not change the last word.
* `lastWord_append_word` — what follows a space is the last word.
-/

namespace FlavorTable.Text

/-- The last space-separated word of a text, trailing spaces aside. -/
def lastWord (s : String) : String :=
  .ofList (((trimEnd (· == ' ') s.toList).reverse.takeWhile (· != ' ')).reverse)

/-- Trailing spaces do not change the last word. -/
theorem lastWord_append_space (s : String) (n : Nat) :
    lastWord (s ++ .ofList (List.replicate n ' ')) = lastWord s := by
  have hTrim : trimEnd (· == ' ') (s.toList ++ List.replicate n ' ') =
      trimEnd (· == ' ') s.toList :=
    trimEnd_append_of_all _ fun c hc => by simp [List.eq_of_mem_replicate hc]
  simp only [lastWord, String.toList_append, String.toList_ofList, hTrim]

/-- What follows a space is the last word, if it holds no space itself. -/
theorem lastWord_append_word (front : String) {word : String} (hWord : ' ' ∉ word.toList)
    (hNil : word ≠ "") : lastWord (front ++ " " ++ word) = word := by
  have hSpace : " ".toList = [' '] := rfl
  have hReverse : (front ++ " " ++ word).toList.reverse =
      word.toList.reverse ++ ' ' :: front.toList.reverse := by
    simp [String.toList_append, hSpace]
  have hKept : ∀ c ∈ word.toList.reverse, (c != ' ') = true := by
    intro c hc
    rw [List.mem_reverse] at hc
    simpa using fun hEq : c = ' ' => hWord (hEq ▸ hc)
  -- The last character is none of the spaces that are dropped.
  have hTrim : (word.toList.reverse ++ ' ' :: front.toList.reverse).dropWhile (· == ' ') =
      word.toList.reverse ++ ' ' :: front.toList.reverse := by
    cases hLast : word.toList.reverse with
    | nil => exact absurd (String.toList_eq_nil_iff.mp (List.reverse_eq_nil_iff.mp hLast)) hNil
    | cons c rest =>
        have hHead : ¬(c == ' ') = true := by simpa using hKept c (hLast ▸ List.mem_cons_self)
        exact List.dropWhile_cons_of_neg hHead
  rw [lastWord, trimEnd, List.reverse_reverse, hReverse, hTrim,
    List.takeWhile_append_of_pos hKept, List.takeWhile_cons_of_neg (by simp), List.append_nil,
    List.reverse_reverse, String.ofList_toList]

/-- The names of a comma-separated list: each entry stripped, blank entries left out. -/
def names (s : String) : List String :=
  ((s.toList.splitOn ',').map fun entry => strip (.ofList entry)).filter fun name => name ≠ ""

end FlavorTable.Text
