/-!
# Texts in pieces

A reader that cuts a text into pieces (lines, fields) works from the right:
a character that is no boundary is put in front of the first piece of the
rest. If the rest has no piece, the character opens one.

## Main results

* `extendFirst_ne_nil` — there is a piece afterwards.
* `mem_extendFirst` — no other piece changes.
-/

namespace FlavorTable.Text

/-- A character put in front of the first piece, which it opens if there is none. -/
def extendFirst (c : Char) : List (List Char) → List (List Char)
  | [] => [[c]]
  | piece :: rest => (c :: piece) :: rest

theorem extendFirst_ne_nil (c : Char) (pieces : List (List Char)) : extendFirst c pieces ≠ [] := by
  cases pieces <;> simp [extendFirst]

theorem length_extendFirst {pieces : List (List Char)} (h : pieces ≠ []) (c : Char) :
    (extendFirst c pieces).length = pieces.length := by
  obtain ⟨first, rest, rfl⟩ := List.exists_cons_of_ne_nil h
  rfl

/-- A piece is an old one, or the first one with the character in front. -/
theorem mem_extendFirst {c : Char} {pieces : List (List Char)} {piece : List Char}
    (h : piece ∈ extendFirst c pieces) :
    piece ∈ pieces ∨ piece = [c] ∨ ∃ old ∈ pieces, piece = c :: old := by
  cases pieces with
  | nil => exact .inr (.inl (by simpa [extendFirst] using h))
  | cons first rest =>
      rcases List.mem_cons.mp h with rfl | hMem
      · exact .inr (.inr ⟨first, List.mem_cons_self, rfl⟩)
      · exact .inl (List.mem_cons_of_mem _ hMem)

end FlavorTable.Text
