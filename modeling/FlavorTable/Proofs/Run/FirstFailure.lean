import FlavorTable.Failure

/-!
# What a reading gives

A reading gives a result or a failure, never both and never neither.  So when
one relation describes results that it gives and another one failures, and
together they leave no case out, both describe it exactly.

Tables and loose rows are read part by part, and the first part that cannot be
read decides the failure.  What stands behind it is not looked at.

## Main results

* `eq_ok_iff_of_complete`, `eq_error_iff_of_complete` — a reading and its description.
* `mapM_eq_ok_iff` — all parts are read when each of them is.
* `mapM_eq_error_iff` — the failure is that of the first part that fails.
-/

namespace FlavorTable

variable {ε α β : Type}

/-! ## Descriptions of a reading -/

section Description

variable {reading : Except ε β} {Good : β → Prop} {Bad : ε → Prop}

theorem eq_ok_iff_of_complete (hGood : ∀ {result}, Good result → reading = .ok result)
    (hBad : ∀ {failure}, Bad failure → reading = .error failure)
    (hComplete : (∃ result, Good result) ∨ ∃ failure, Bad failure) {result : β} :
    reading = .ok result ↔ Good result := by
  refine ⟨fun h => ?_, hGood⟩
  rcases hComplete with ⟨found, hFound⟩ | ⟨failure, hFailure⟩
  · rw [hGood hFound] at h
    exact Except.ok.inj h ▸ hFound
  · rw [hBad hFailure] at h
    cases h

theorem eq_error_iff_of_complete (hGood : ∀ {result}, Good result → reading = .ok result)
    (hBad : ∀ {failure}, Bad failure → reading = .error failure)
    (hComplete : (∃ result, Good result) ∨ ∃ failure, Bad failure) {failure : ε} :
    reading = .error failure ↔ Bad failure := by
  refine ⟨fun h => ?_, hBad⟩
  rcases hComplete with ⟨result, hResult⟩ | ⟨found, hFound⟩
  · rw [hGood hResult] at h
    cases h
  · rw [hBad hFound] at h
    exact Except.error.inj h ▸ hFound

end Description

/-! ## Several parts -/

variable {read : α → Except ε β}

theorem mapM_cons_of_ok {part : α} {first : β} (h : read part = .ok first) (rest : List α) :
    (part :: rest).mapM read = (rest.mapM read).map (first :: ·) := by
  rw [List.mapM_cons, h]
  cases rest.mapM read <;> rfl

theorem mapM_cons_of_error {part : α} {failure : ε} (h : read part = .error failure)
    (rest : List α) : (part :: rest).mapM read = .error failure := by
  rw [List.mapM_cons, h]
  rfl

/-- All parts are read when each of them is, and each result is the reading of its part. -/
theorem mapM_eq_ok_iff {parts : List α} {results : List β} :
    parts.mapM read = .ok results ↔ parts.map read = results.map .ok := by
  constructor
  · intro h
    induction parts generalizing results with
    | nil =>
        cases h
        rfl
    | cons part rest ih =>
        cases hPart : read part with
        | error failure =>
            rw [mapM_cons_of_error hPart] at h
            cases h
        | ok first =>
            rw [mapM_cons_of_ok hPart] at h
            cases hRest : rest.mapM read with
            | error failure =>
                rw [hRest] at h
                cases h
            | ok others =>
                rw [hRest] at h
                cases h
                rw [List.map_cons, hPart, ih hRest]
                rfl
  · intro h
    induction parts generalizing results with
    | nil =>
        cases results with
        | nil => rfl
        | cons => cases h
    | cons part rest ih =>
        cases results with
        | nil => cases h
        | cons first others =>
            obtain ⟨hFirst, hOthers⟩ := List.cons.inj h
            rw [mapM_cons_of_ok hFirst, ih hOthers]
            rfl

/-- There are results of all parts when each part has one. -/
theorem exists_map_eq_ok_iff {parts : List α} :
    (∃ results : List β, parts.map read = results.map .ok) ↔
      ∀ part ∈ parts, ∃ result, read part = .ok result := by
  induction parts with
  | nil => simp
  | cons part rest ih =>
      rw [List.forall_mem_cons, ← ih]
      constructor
      · rintro ⟨results, h⟩
        cases results with
        | nil => cases h
        | cons first others =>
            obtain ⟨hFirst, hOthers⟩ := List.cons.inj h
            exact ⟨⟨first, hFirst⟩, others, hOthers⟩
      · rintro ⟨⟨first, hFirst⟩, others, hOthers⟩
        exact ⟨first :: others, by rw [List.map_cons, List.map_cons, hFirst, hOthers]⟩

/-- Reading fails with the failure of a part before which all others are read. -/
theorem mapM_eq_error_iff {parts : List α} {failure : ε} :
    parts.mapM read = .error failure ↔
      ∃ before bad after, parts = before ++ bad :: after ∧
        (∃ results : List β, before.map read = results.map .ok) ∧ read bad = .error failure := by
  constructor
  · intro h
    induction parts with
    | nil => cases h
    | cons part rest ih =>
        cases hPart : read part with
        | error first =>
            rw [mapM_cons_of_error hPart] at h
            cases h
            exact ⟨[], part, rest, rfl, ⟨[], rfl⟩, hPart⟩
        | ok result =>
            rw [mapM_cons_of_ok hPart] at h
            cases hRest : rest.mapM read with
            | ok results =>
                rw [hRest] at h
                cases h
            | error later =>
                rw [hRest] at h
                cases h
                obtain ⟨before, bad, after, rfl, ⟨results, hBefore⟩, hBad⟩ := ih hRest
                refine ⟨part :: before, bad, after, rfl, ⟨result :: results, ?_⟩, hBad⟩
                rw [List.map_cons, List.map_cons, hPart, hBefore]
  · rintro ⟨before, bad, after, rfl, ⟨results, hBefore⟩, hBad⟩
    rw [List.mapM_append, mapM_eq_ok_iff.mpr hBefore, mapM_cons_of_error hBad]
    rfl

end FlavorTable
