import FlavorTable.Proofs.Lookup.Partition
import FlavorTable.Proofs.Text.LastWord

/-!
# The maker pattern

A scan for a word stands for a pattern match: the makers it looks for are those
like `% word`, where `%` stands for any text.  `Like` is this kind of match for
all patterns, with `_` for any one character.

Two things have to be said for the scan to be such a match.  The maker is taken
with a space in front and without the spaces at its end, so that a maker of one
word matches and padding does not count.  And the word is taken as it is:
percent signs and underscores in it stand for themselves.

## Main results

* `Like.any_chars_iff` — a pattern that begins with any text is an end.
* `endsInWord_iff_like` — the scan as a pattern match.
* `endsInWord_is_pattern` — the meaning of the scan for a word.
-/

namespace FlavorTable

/-! ## Patterns -/

/-- A part of a pattern. -/
inductive Like.Part where
  /-- The character itself. -/
  | char (c : Char)
  /-- Any one character, written as an underscore. -/
  | one
  /-- Any text, written as a percent sign. -/
  | any

/-- The part that a character stands for in a written pattern. -/
def Like.Part.written (c : Char) : Like.Part :=
  if c = '%' then .any else if c = '_' then .one else .char c

/-- The text has the shape of the pattern. -/
inductive Like : List Like.Part → List Char → Prop where
  | nil : Like [] []
  | char {c : Char} {pattern : List Like.Part} {s : List Char} (h : Like pattern s) :
      Like (.char c :: pattern) (c :: s)
  | one {c : Char} {pattern : List Like.Part} {s : List Char} (h : Like pattern s) :
      Like (.one :: pattern) (c :: s)
  | any {stretch : List Char} {pattern : List Like.Part} {s : List Char} (h : Like pattern s) :
      Like (.any :: pattern) (stretch ++ s)

namespace Like

variable {s t : List Char}

/-- Characters that stand for themselves match one text. -/
theorem chars_iff : Like (s.map .char) t ↔ s = t := by
  constructor
  · intro h
    induction s generalizing t with
    | nil =>
        cases h
        rfl
    | cons c rest ih =>
        cases h with
        | char hRest => rw [ih hRest]
  · rintro rfl
    induction s with
    | nil => exact .nil
    | cons c rest ih => exact .char ih

theorem any_chars_iff : Like (.any :: s.map .char) t ↔ s <:+ t := by
  constructor
  · intro h
    cases h with
    | any hRest =>
        rw [chars_iff] at hRest
        exact hRest ▸ List.suffix_append _ s
  · rintro ⟨stretch, rfl⟩
    exact .any (chars_iff.mpr rfl)

/-- The pattern for the texts that end in the word as a word of its own. -/
def ending (word : String) : List Part := .any :: (' ' :: word.toList).map .char

/-- A word without wildcards is written into the pattern as it is. -/
theorem map_written_eq_ending {word : String} (hAny : '%' ∉ word.toList)
    (hOne : '_' ∉ word.toList) : ("% " ++ word).toList.map Part.written = ending word := by
  have hChars : word.toList.map Part.written = word.toList.map .char := by
    apply List.map_congr_left
    intro c hc
    have hPercent : c ≠ '%' := fun hEq => hAny (hEq ▸ hc)
    have hUnderscore : c ≠ '_' := fun hEq => hOne (hEq ▸ hc)
    rw [Part.written, if_neg hPercent, if_neg hUnderscore]
  rw [String.toList_append, List.map_append, hChars]
  rfl

end Like

/-! ## The scan as a pattern -/

open Text

variable {maker suffix : String}

theorem endsInWord_iff_suffix (hSpace : ' ' ∉ suffix.toList) :
    endsInWord maker suffix = true ↔ (' ' :: suffix.toList) <:+ (' ' :: unpadded maker) := by
  rw [endsInWord_iff, lastWord_eq_iff]
  exact and_iff_right hSpace

theorem endsInWord_iff_like (hSpace : ' ' ∉ suffix.toList) :
    endsInWord maker suffix = true ↔ Like (Like.ending suffix) (' ' :: unpadded maker) := by
  rw [endsInWord_iff_suffix hSpace, Like.ending, Like.any_chars_iff]

theorem endsInWord_iff_exists_front (hSuffix : suffix ≠ "") :
    endsInWord maker suffix = true ↔
      ' ' ∉ suffix.toList ∧
        ∃ front k, maker = front ++ suffix ++ spaces k ∧ OpensWord front := by
  rw [endsInWord_iff, lastWord_eq_iff]
  exact and_congr_right fun hSpace => ends_iff_exists_front hSpace hSuffix

/-- Padding makes no difference. -/
theorem endsInWord_append_spaces (k : Nat) :
    endsInWord (maker ++ spaces k) suffix = endsInWord maker suffix := by
  rw [endsInWord, spaces, lastWord_append_space, endsInWord]

/-- A word stays the last one when whole words are put in front. -/
theorem endsInWord_append_front (hSuffix : suffix ≠ "") (h : endsInWord maker suffix = true)
    {front : String} (hFront : front.toList.getLast? = some ' ') :
    endsInWord (front ++ maker) suffix = true := by
  rw [endsInWord_iff_exists_front hSuffix] at h ⊢
  obtain ⟨hSpace, before, k, rfl, hBefore⟩ := h
  refine ⟨hSpace, front ++ before, k, by simp only [String.append_assoc], .inr ?_⟩
  rcases hBefore with rfl | hLast
  · rwa [String.append_empty]
  · rw [String.toList_append, List.getLast?_append, hLast]
    rfl

/-- **The maker pattern.** For a suffix with characters, a maker matches exactly
when the suffix has no space and the maker is a front that is empty or ends in
a space, the suffix, and any number of spaces.  For a suffix without spaces this
says that the maker, with a space in front and without the spaces at its end,
ends in the suffix with a space in front; or that it is like the pattern made of
any text, a space and the suffix, all of whose characters stand for themselves.
Without wildcards in the suffix this is the pattern as it is written.  A match is
kept when spaces are appended to the maker, and when a text that ends in a space
is put in front of it. -/
theorem endsInWord_is_pattern (maker suffix : String) (hSuffix : suffix ≠ "") :
    (endsInWord maker suffix = true ↔
      ' ' ∉ suffix.toList ∧
        ∃ front k, maker = front ++ suffix ++ spaces k ∧
          (front = "" ∨ front.toList.getLast? = some ' ')) ∧
    (' ' ∉ suffix.toList →
      (endsInWord maker suffix = true ↔
        (' ' :: suffix.toList) <:+ (' ' :: unpadded maker)) ∧
      (endsInWord maker suffix = true ↔
        Like (Like.ending suffix) (' ' :: unpadded maker)) ∧
      ('%' ∉ suffix.toList → '_' ∉ suffix.toList →
        (endsInWord maker suffix = true ↔
          Like (("% " ++ suffix).toList.map Like.Part.written) (' ' :: unpadded maker)))) ∧
    (endsInWord maker suffix = true →
      (∀ k, endsInWord (maker ++ spaces k) suffix = true) ∧
      ∀ front : String, front.toList.getLast? = some ' ' →
        endsInWord (front ++ maker) suffix = true) := by
  refine ⟨endsInWord_iff_exists_front hSuffix, ?_, ?_⟩
  · intro hSpace
    refine ⟨endsInWord_iff_suffix hSpace, endsInWord_iff_like hSpace, ?_⟩
    intro hAny hOne
    rw [Like.map_written_eq_ending hAny hOne]
    exact endsInWord_iff_like hSpace
  · intro h
    refine ⟨fun k => ?_, fun front => endsInWord_append_front hSuffix h⟩
    rw [endsInWord_append_spaces]
    exact h

/-- An underscore in the suffix matches an underscore, and no other character. -/
theorem endsInWord_is_pattern_underscore :
    (endsInWord "Zoe and Ben Co_  " "Co_" = true ∧ endsInWord "Zoe and Ben Cox" "Co_" = false) ∧
      Like ("% Cox".toList.map Like.Part.written) " Zoe and Ben Cox".toList := by
  have hUnderscore : "Co_" ≠ "" := by decide
  have hMatch : endsInWord "Ben Co_" "Co_" = true :=
    (endsInWord_is_pattern "Ben Co_" "Co_" hUnderscore).1.mpr
      ⟨by decide, "Ben ", 0, by decide, by decide⟩
  have hFront : endsInWord ("Zoe and " ++ "Ben Co_") "Co_" = true :=
    ((endsInWord_is_pattern "Ben Co_" "Co_" hUnderscore).2.2 hMatch).2 "Zoe and " (by decide)
  have hPadded : endsInWord ("Zoe and " ++ "Ben Co_" ++ spaces 2) "Co_" = true :=
    ((endsInWord_is_pattern _ "Co_" hUnderscore).2.2 hFront).1 2
  have hOther : ¬endsInWord "Zoe and Ben Cox" "Co_" = true := by
    rw [((endsInWord_is_pattern "Zoe and Ben Cox" "Co_" hUnderscore).2.1 (by decide)).1]
    decide
  have hWritten :=
    ((endsInWord_is_pattern "Zoe and Ben Cox" "Cox" (by decide)).2.1 (by decide)).2.2
      (by decide) (by decide)
  exact ⟨⟨hPadded, eq_false_of_ne_true hOther⟩, hWritten.mp (by decide)⟩

end FlavorTable
