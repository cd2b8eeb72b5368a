import FlavorTable.Text.Word
import FlavorTable.Proofs.Text.Trimming

/-!
# Lists of names

A list of names is written with commas between its entries.  An entry that
holds white space only gives no name, and every other entry gives the name that
is left when the white space around it is stripped.

So a *name* is a text that can stand on its own: it is not empty, it has no
comma that would divide it, and no white space around it that would be
stripped.  `Lists` relates the entries of a list to its names, whatever white
space stands around these and however many blank entries between them.  Reading
gives names only, and gives each list of names back from everything that lists
them.

## Main results

* `lists_entries` — the entries of a text list the names that are read from it.
* `isName_of_mem_names` — what is read are names.
* `names_intercalate` — entries that list some names are read as these names.
-/

namespace FlavorTable.Text

/-- A text that a list can name. -/
structure IsName (s : String) : Prop where
  nonempty : s ≠ ""
  undivided : ',' ∉ s.toList
  stripped : strip s = s

theorem isName_iff {s : String} : IsName s ↔ s ≠ "" ∧ ',' ∉ s.toList ∧ Trimmed s := by
  rw [← strip_eq_self_iff]
  exact ⟨fun h => ⟨h.nonempty, h.undivided, h.stripped⟩, fun ⟨hNe, hComma, hStrip⟩ =>
    ⟨hNe, hComma, hStrip⟩⟩

theorem IsName.trimmed {s : String} (h : IsName s) : Trimmed s := (isName_iff.mp h).2.2

/-- The entries between the commas of a list, and the names that they list. -/
inductive Lists : List (List Char) → List String → Prop where
  | nil : Lists [] []
  | blank {entry : List Char} {entries : List (List Char)} {listed : List String}
      (hBlank : isBlankText entry = true) (hRest : Lists entries listed) :
      Lists (entry :: entries) listed
  | name {before after : List Char} {s : String} {entries : List (List Char)}
      {listed : List String} (hName : IsName s) (hBefore : isBlankText before = true)
      (hAfter : isBlankText after = true) (hRest : Lists entries listed) :
      Lists ((before ++ (s.toList ++ after)) :: entries) (s :: listed)

/-! ## From names to a text -/

variable {entry : List Char} {entries : List (List Char)} {listed : List String}

/-- The names that the entries give. -/
def namesOf (entries : List (List Char)) : List String :=
  (entries.map fun entry => strip (.ofList entry)).filter fun name => name ≠ ""

theorem names_eq_namesOf (s : String) : names s = namesOf (s.toList.splitOn ',') := rfl

theorem strip_of_blank (h : isBlankText entry = true) : strip (.ofList entry) = "" := by
  have hDrop : entry.dropWhile isBlank = [] := List.dropWhile_eq_nil_iff.mpr (isBlankText_iff.mp h)
  rw [strip, String.toList_ofList, hDrop]
  rfl

theorem namesOf_of_blank (h : isBlankText entry = true) (entries : List (List Char)) :
    namesOf (entry :: entries) = namesOf entries := by
  rw [namesOf, List.map_cons, strip_of_blank h, List.filter_cons_of_neg (by simp), namesOf]

theorem namesOf_of_name {s : String} (hStrip : strip (.ofList entry) = s) (hName : s ≠ "")
    (entries : List (List Char)) : namesOf (entry :: entries) = s :: namesOf entries := by
  rw [namesOf, List.map_cons, hStrip, List.filter_cons_of_pos (by simpa using hName), namesOf]

theorem Lists.namesOf_eq (h : Lists entries listed) : namesOf entries = listed := by
  induction h with
  | nil => rfl
  | blank hBlank _ ih => rw [namesOf_of_blank hBlank, ih]
  | name hName hBefore hAfter _ ih =>
      rw [namesOf_of_name (strip_margins hName.trimmed hBefore hAfter) hName.nonempty, ih]

theorem comma_not_mem_of_blank {s : List Char} (h : isBlankText s = true) : ',' ∉ s := by
  intro hComma
  have hBlank : isBlank ',' = true := isBlankText_iff.mp h ',' hComma
  exact absurd hBlank (by decide)

/-- No entry holds a comma, so the commas between them are the only ones. -/
theorem Lists.comma_not_mem (h : Lists entries listed) : ∀ entry ∈ entries, ',' ∉ entry := by
  induction h with
  | nil => simp
  | blank hBlank _ ih => exact List.forall_mem_cons.mpr ⟨comma_not_mem_of_blank hBlank, ih⟩
  | name hName hBefore hAfter _ ih =>
      refine List.forall_mem_cons.mpr ⟨?_, ih⟩
      rw [List.mem_append, List.mem_append, not_or, not_or]
      exact ⟨comma_not_mem_of_blank hBefore, hName.undivided, comma_not_mem_of_blank hAfter⟩

/-- Entries that list some names are read as these names. -/
theorem names_intercalate (h : Lists entries listed) :
    names (.ofList ([','].intercalate entries)) = listed := by
  rw [names_eq_namesOf, String.toList_ofList]
  by_cases hNil : entries = []
  · subst hNil
    cases h
    rfl
  · rw [List.splitOn_intercalate ',' h.comma_not_mem hNil, h.namesOf_eq]

/-- A name is a list of itself. -/
theorem IsName.names_eq {s : String} (h : IsName s) : names s = [s] := by
  have hNone : isBlankText [] = true := rfl
  have hNames := names_intercalate (.name h hNone hNone .nil)
  rwa [List.intercalate_singleton, List.nil_append, List.append_nil, String.ofList_toList]
    at hNames

/-! ## From a text to names -/

/-- Cutting a list at a separator leaves none of the separators. -/
theorem not_mem_of_mem_splitOn {a : Char} {s piece : List Char} (h : piece ∈ s.splitOn a) :
    a ∉ piece := by
  induction s generalizing piece with
  | nil =>
      rw [List.splitOn_nil, List.mem_singleton] at h
      simp [h]
  | cons c rest ih =>
      rw [List.splitOn_cons_eq_if_modifyHead] at h
      by_cases hCut : (c == a) = true
      · rw [if_pos hCut] at h
        rcases List.mem_cons.mp h with rfl | hPiece
        · exact List.not_mem_nil
        · exact ih hPiece
      · rw [if_neg hCut] at h
        obtain ⟨first, others, hRest⟩ := List.exists_cons_of_ne_nil (List.splitOn_ne_nil a rest)
        rw [hRest, List.modifyHead_cons] at h
        rw [hRest] at ih
        rcases List.mem_cons.mp h with rfl | hPiece
        · have hNe : a ≠ c := by
            rintro rfl
            exact hCut BEq.rfl
          exact List.not_mem_cons_of_ne_of_not_mem hNe (ih List.mem_cons_self)
        · exact ih (List.mem_cons_of_mem first hPiece)

/-- What stripping leaves of an entry is nothing or a name. -/
theorem isName_strip (hComma : ',' ∉ entry) (hNe : strip (.ofList entry) ≠ "") :
    IsName (strip (.ofList entry)) := by
  refine
    { nonempty := hNe
      undivided := ?_
      stripped := strip_eq_self_iff.mpr (trimmed_strip _) }
  obtain ⟨before, after, hMargins, -⟩ := exists_margins entry
  intro hMem
  apply hComma
  rw [hMargins]
  exact List.mem_append_right before (List.mem_append_left after hMem)

theorem lists_namesOf (h : ∀ entry ∈ entries, ',' ∉ entry) : Lists entries (namesOf entries) := by
  induction entries with
  | nil => exact .nil
  | cons entry rest ih =>
      obtain ⟨hEntry, hRest⟩ := List.forall_mem_cons.mp h
      obtain ⟨before, after, hMargins, hBefore, hAfter⟩ := exists_margins entry
      by_cases hStrip : strip (.ofList entry) = ""
      · -- Nothing is left, so both margins together are the entry.
        have hBlank : isBlankText entry = true := by
          rw [hMargins, hStrip]
          exact isBlankText_append.mpr ⟨hBefore, hAfter⟩
        rw [namesOf_of_blank hBlank]
        exact .blank hBlank (ih hRest)
      · rw [namesOf_of_name rfl hStrip]
        have hLists := Lists.name (isName_strip hEntry hStrip) hBefore hAfter (ih hRest)
        rwa [← hMargins] at hLists

/-- The entries of a text list the names that are read from it. -/
theorem lists_entries (s : String) : Lists (s.toList.splitOn ',') (names s) :=
  lists_namesOf fun _ => not_mem_of_mem_splitOn

theorem Lists.isName (h : Lists entries listed) : ∀ name ∈ listed, IsName name := by
  induction h with
  | nil => simp
  | blank _ _ ih => exact ih
  | name hName _ _ _ ih => exact List.forall_mem_cons.mpr ⟨hName, ih⟩

/-- Only names are read. -/
theorem isName_of_mem_names {s name : String} (h : name ∈ names s) : IsName name :=
  (lists_entries s).isName name h

end FlavorTable.Text
