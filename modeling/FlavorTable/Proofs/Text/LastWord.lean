import FlavorTable.Text.Word
import FlavorTable.Proofs.Text.Trimming

/-!
# The last word of a text

A text without its trailing spaces ends in its last word, and what stands
before the word is empty or ends in a space.  Both cases become one when a
space is put in front: a word without spaces is the last one exactly when the
text with a space in front ends in the word with a space in front.

The text as a whole is then a front, the word, and padding, and a word with
characters determines where the padding begins.  The empty word does not: it is
the last word of the texts that hold nothing but spaces.

## Main results

* `lastWord_eq_iff` — the last word as the end of a text.
* `ends_iff_exists_front` — a text as front, word and padding.
* `lastWord_eq_empty_iff` — when the last word is empty.
-/

namespace FlavorTable.Text

/-! ## Parts of a list -/

section Parts

variable {a : Char} {chars tail : List Char}

/-- An end of a list with an `a` before it, or with nothing before it. -/
theorem cons_suffix_cons_iff :
    (a :: tail) <:+ (a :: chars) ↔
      ∃ front, chars = front ++ tail ∧ ∀ c ∈ front.getLast?, c = a := by
  constructor
  · intro h
    rcases List.suffix_cons_iff.mp h with hAll | ⟨front, hFront⟩
    · exact ⟨[], (List.cons.inj hAll).2.symm, by simp⟩
    · exact ⟨front ++ [a], by rw [← hFront, List.append_cons], by simp⟩
  · rintro ⟨front, rfl, hLast⟩
    rcases List.eq_nil_or_concat front with rfl | ⟨before, c, rfl⟩
    · exact List.suffix_rfl
    · have hEq : c = a := hLast c (by simp)
      exact ⟨a :: before, by simp [hEq]⟩

/-- The part of a list behind the last `a`. -/
theorem rtakeWhile_ne_eq_iff :
    chars.rtakeWhile (· != a) = tail ↔
      a ∉ tail ∧ ∃ front, chars = front ++ tail ∧ ∀ c ∈ front.getLast?, c = a := by
  constructor
  · rintro rfl
    refine ⟨fun hMem => by simpa using List.mem_rtakeWhile_imp hMem,
      chars.rdropWhile (· != a), List.rdropWhile_append_rtakeWhile.symm, ?_⟩
    intro c hc
    have hStop := not_of_getLast?_trimEnd (p := (· != a)) hc
    simpa using hStop
  · rintro ⟨hMem, front, rfl, hLast⟩
    have hTail : ∀ c ∈ tail.reverse, (c != a) = true := by
      intro c hc
      rw [List.mem_reverse] at hc
      exact bne_iff_ne.mpr fun hEq => hMem (hEq ▸ hc)
    have hFront : front.reverse.takeWhile (· != a) = [] := by
      cases hReverse : front.reverse with
      | nil => rfl
      | cons c before =>
          have hEq : c = a := hLast c (by rw [← List.head?_reverse, hReverse]; rfl)
          rw [hEq, List.takeWhile_cons_of_neg (by simp)]
    rw [List.rtakeWhile, List.reverse_append, List.takeWhile_append_of_pos hTail, hFront,
      List.append_nil, List.reverse_reverse]

end Parts

/-! ## The word at the end -/

/-- The text without the plain spaces at its end. -/
def unpadded (s : String) : List Char := trimEnd (· == ' ') s.toList

variable {s word : String}

theorem toList_lastWord (s : String) :
    (lastWord s).toList = (unpadded s).rtakeWhile (· != ' ') :=
  String.toList_ofList

/-- A word is the last one when it has no space and the text ends in it, both with a space in
front. -/
theorem lastWord_eq_iff :
    lastWord s = word ↔ ' ' ∉ word.toList ∧ (' ' :: word.toList) <:+ (' ' :: unpadded s) := by
  rw [← String.toList_inj, toList_lastWord, rtakeWhile_ne_eq_iff, cons_suffix_cons_iff]

/-! ## Front, word and padding -/

/-- So many plain spaces. -/
def spaces (k : Nat) : String := .ofList (List.replicate k ' ')

/-- The text can stand before a word: it is empty or ends in a plain space. -/
def OpensWord (front : String) : Prop := front = "" ∨ front.toList.getLast? = some ' '

theorem opensWord_iff {front : String} :
    OpensWord front ↔ ∀ c ∈ front.toList.getLast?, c = ' ' := by
  rw [OpensWord, ← String.toList_eq_nil_iff]
  cases hLast : front.toList.getLast? with
  | none => simp [List.getLast?_eq_none_iff.mp hLast]
  | some c =>
      have hNe : front.toList ≠ [] := by
        intro hNil
        rw [hNil] at hLast
        cases hLast
      simp [hNe]

theorem exists_padding (s : String) : ∃ k, s = .ofList (unpadded s) ++ spaces k := by
  obtain ⟨tail, hTail, hSpaces⟩ := exists_trimEnd_append (· == ' ') s.toList
  refine ⟨tail.length, String.toList_inj.mp ?_⟩
  have hReplicate : tail = List.replicate tail.length ' ' :=
    List.eq_replicate_of_mem fun c hc => beq_iff_eq.mp (hSpaces c hc)
  rw [spaces, String.toList_append, String.toList_ofList, String.toList_ofList, ← hReplicate]
  exact hTail

/-- Of a text that ends in no space, only the padding is dropped. -/
theorem unpadded_append_spaces (h : s.toList.getLast? ≠ some ' ') (k : Nat) :
    unpadded (s ++ spaces k) = s.toList := by
  have hPadding : ∀ c ∈ List.replicate k ' ', (c == ' ') = true := by
    intro c hc
    rw [List.eq_of_mem_replicate hc]
    rfl
  rw [unpadded, spaces, String.toList_append, String.toList_ofList,
    trimEnd_append_of_all _ hPadding]
  apply trimEnd_of_getLast?
  intro c hc
  exact beq_eq_false_iff_ne.mpr fun hEq => h (hEq ▸ hc)

theorem getLast?_append_word (front : String) (hSpace : ' ' ∉ word.toList) (hWord : word ≠ "") :
    (front ++ word).toList.getLast? ≠ some ' ' := by
  have hNe : word.toList ≠ [] := fun hNil => hWord (String.toList_eq_nil_iff.mp hNil)
  rw [String.toList_append, List.getLast?_append_of_ne_nil _ hNe]
  exact fun hLast => hSpace (List.mem_of_getLast? hLast)

/-- A text ends in a word with characters when it is a front, the word, and padding. -/
theorem ends_iff_exists_front (hSpace : ' ' ∉ word.toList) (hWord : word ≠ "") :
    (' ' :: word.toList) <:+ (' ' :: unpadded s) ↔
      ∃ front k, s = front ++ word ++ spaces k ∧ OpensWord front := by
  rw [cons_suffix_cons_iff]
  constructor
  · rintro ⟨front, hFront, hLast⟩
    obtain ⟨k, hPadding⟩ := exists_padding s
    rw [hFront, String.ofList_append, String.ofList_toList] at hPadding
    exact ⟨.ofList front, k, hPadding, opensWord_iff.mpr (by rwa [String.toList_ofList])⟩
  · rintro ⟨front, k, rfl, hOpens⟩
    rw [unpadded_append_spaces (getLast?_append_word front hSpace hWord), String.toList_append]
    exact ⟨front.toList, rfl, opensWord_iff.mp hOpens⟩

/-! ## The empty word -/

/-- The last word is empty when the text holds nothing but spaces. -/
theorem lastWord_eq_empty_iff : lastWord s = "" ↔ ∀ c ∈ s.toList, c = ' ' := by
  rw [lastWord_eq_iff, cons_suffix_cons_iff]
  constructor
  · rintro ⟨-, front, hFront, hLast⟩
    rw [String.toList_empty, List.append_nil] at hFront
    subst hFront
    -- Dropping the padding left a list that ends in a space, so it left nothing.
    have hNone : (unpadded s).getLast? = none := by
      cases hEnd : (unpadded s).getLast? with
      | none => rfl
      | some c =>
          have hStop := not_of_getLast?_trimEnd hEnd
          rw [hLast c hEnd] at hStop
          cases hStop
    obtain ⟨k, hPadding⟩ := exists_padding s
    have hChars : s.toList = List.replicate k ' ' := by
      rw [hPadding, List.getLast?_eq_none_iff.mp hNone, spaces]
      simp
    intro c hc
    rw [hChars] at hc
    exact List.eq_of_mem_replicate hc
  · intro h
    have hNone : unpadded s = [] :=
      List.rdropWhile_eq_nil_iff.mpr fun c hc => beq_iff_eq.mpr (h c hc)
    exact ⟨List.not_mem_nil, [], hNone, by simp⟩

end FlavorTable.Text
