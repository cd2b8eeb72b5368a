import Mathlib.Data.List.DropRight
import FlavorTable.Text.Blank

/-!
# What trimming leaves

Trimming the end of a text drops characters of a class and nothing else, and it
stops at the first character from the right that is not of the class.  So the
text is what is left and a tail of dropped characters, and what is left does
not end in the class.

Stripping trims white space at both ends.  What it leaves is a *trimmed* text,
which neither begins nor ends with white space, and the trimmed texts are those
that it leaves alone.

## Main results

* `exists_trimEnd_append`, `not_of_getLast?_trimEnd` — the two parts of a text.
* `strip_eq_self_iff` — which texts stripping leaves alone.
* `strip_margins` — white space around a trimmed text is stripped.
-/

namespace FlavorTable.Text

/-! ## One end -/

section TrimEnd

variable {p : Char → Bool} {s : List Char}

theorem trimEnd_eq_rdropWhile (p : Char → Bool) (s : List Char) :
    trimEnd p s = s.rdropWhile p := rfl

/-- Only characters of the class are dropped. -/
theorem exists_trimEnd_append (p : Char → Bool) (s : List Char) :
    ∃ tail, s = trimEnd p s ++ tail ∧ ∀ c ∈ tail, p c = true :=
  ⟨s.rtakeWhile p, List.rdropWhile_append_rtakeWhile.symm, fun _ => List.mem_rtakeWhile_imp⟩

theorem trimEnd_prefix (p : Char → Bool) (s : List Char) : trimEnd p s <+: s :=
  List.rdropWhile_prefix p s

/-- What is left does not end in the class. -/
theorem not_of_getLast?_trimEnd {c : Char} (h : c ∈ (trimEnd p s).getLast?) : p c = false := by
  obtain ⟨hNil, rfl⟩ := List.mem_getLast?_eq_getLast h
  exact eq_false_of_ne_true (List.rdropWhile_last_not p s hNil)

theorem trimEnd_of_getLast? (h : ∀ c ∈ s.getLast?, p c = false) : trimEnd p s = s := by
  rw [trimEnd_eq_rdropWhile, List.rdropWhile_eq_self_iff]
  intro hNil
  rw [h _ (List.getLast_mem_getLast? hNil)]
  exact Bool.false_ne_true

end TrimEnd

/-! ## Both ends -/

/-- The text neither begins nor ends with white space. -/
def Trimmed (s : String) : Prop :=
  (∀ c ∈ s.toList.head?, isBlank c = false) ∧ ∀ c ∈ s.toList.getLast?, isBlank c = false

-- Both halves are named because the characters are also finitely many.
instance (s : String) : Decidable (Trimmed s) :=
  @instDecidableAnd _ _ (Option.decidableForallMem s.toList.head?)
    (Option.decidableForallMem s.toList.getLast?)

variable {s : String}

/-- Stripping leaves a trimmed text. -/
theorem trimmed_strip (s : String) : Trimmed (strip s) := by
  rw [Trimmed, toList_strip]
  refine ⟨?_, fun c => not_of_getLast?_trimEnd⟩
  intro c hc
  -- Trimming the end afterwards does not touch the first character.
  obtain ⟨tail, hTail⟩ := trimEnd_prefix isBlank (s.toList.dropWhile isBlank)
  have hHead : (s.toList.dropWhile isBlank).head? = some c := by
    rw [← hTail, List.head?_append, Option.mem_def.mp hc]
    rfl
  have hFirst := List.head?_dropWhile_not isBlank s.toList
  rwa [hHead] at hFirst

/-- White space around a trimmed text is stripped. -/
theorem strip_margins (h : Trimmed s) {before after : List Char}
    (hBefore : isBlankText before = true) (hAfter : isBlankText after = true) :
    strip (.ofList (before ++ (s.toList ++ after))) = s := by
  rw [isBlankText_iff] at hBefore hAfter
  have hStart : (before ++ (s.toList ++ after)).dropWhile isBlank =
      (s.toList ++ after).dropWhile isBlank := List.dropWhile_append_of_pos hBefore
  rw [strip, String.toList_ofList, hStart]
  cases hChars : s.toList with
  | nil =>
      have hNone : ([] ++ after).dropWhile isBlank = [] :=
        List.dropWhile_eq_nil_iff.mpr hAfter
      rw [hNone, String.toList_eq_nil_iff.mp hChars]
      rfl
  | cons c rest =>
      have hFirst : isBlank c = false := h.1 c (by rw [hChars]; rfl)
      have hKept : (c :: rest ++ after).dropWhile isBlank = c :: rest ++ after :=
        List.dropWhile_cons_of_neg (by rw [hFirst]; exact Bool.false_ne_true)
      rw [hKept, trimEnd_append_of_all _ hAfter, ← hChars, trimEnd_of_getLast? h.2,
        String.ofList_toList]

/-- Stripping leaves the trimmed texts alone, and no others. -/
theorem strip_eq_self_iff : strip s = s ↔ Trimmed s := by
  constructor
  · intro h
    rw [← h]
    exact trimmed_strip s
  · intro h
    have hNone : isBlankText [] = true := rfl
    have hMargins := strip_margins h hNone hNone
    rwa [List.append_nil, List.nil_append, String.ofList_toList] at hMargins

/-- A text is what stripping leaves of it between white space. -/
theorem exists_margins (s : List Char) :
    ∃ before after, s = before ++ ((strip (.ofList s)).toList ++ after) ∧
      isBlankText before = true ∧ isBlankText after = true := by
  obtain ⟨after, hAfter, hBlank⟩ := exists_trimEnd_append isBlank (s.dropWhile isBlank)
  refine ⟨s.takeWhile isBlank, after, ?_, List.all_takeWhile, isBlankText_iff.mpr hBlank⟩
  rw [toList_strip, String.toList_ofList, ← hAfter, List.takeWhile_append_dropWhile]

end FlavorTable.Text
