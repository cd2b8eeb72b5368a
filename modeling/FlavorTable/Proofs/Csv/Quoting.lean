import FlavorTable.Csv.Split
import FlavorTable.Csv.Write
import FlavorTable.Proofs.Text.Lines

/-!
# Quoting is undone by reading

The writer looks at one field at a time and quotes some of them; the reader
runs one automaton over the whole line.  A written field leaves the automaton
outside quotes, provided that what follows it does not begin with a quote:
the closing quote of the field would otherwise be taken for the first half of
a doubled one.  What follows is a comma or the end of the line, so the fields
are read back one by one.

## Main results

* `scan_quoteField` — reading over one written field.
* `scan_joined` — a line of written fields has exactly these fields.
* `split_joined` — the same for texts.
* `split_written_append` — written fields at the front of a line.
* `quoting_undone_by_splitting` — both, for any fields and any rest of a line.
-/

namespace FlavorTable.Csv

open FlavorTable.Text

/-- The characters of a text with every double quote written twice. -/
def doubled (s : List Char) : List Char := s.flatMap fun c => if c = '"' then ['"', '"'] else [c]

theorem doubled_cons {c : Char} (h : c ≠ '"') (s : List Char) :
    doubled (c :: s) = c :: doubled s := by
  simp [doubled, h]

/-- A comma or a quote is what a field is quoted for. -/
theorem needsQuotes_iff {s : String} :
    needsQuotes s = true ↔ ',' ∈ s.toList ∨ '"' ∈ s.toList := by
  simp [needsQuotes, List.any_eq_true, and_or_left, exists_or]

theorem toList_quoteField (s : String) :
    (quoteField s).toList =
      if needsQuotes s then '"' :: (doubled s.toList ++ ['"']) else s.toList := by
  unfold quoteField
  split
  · rw [String.toList_ofList]
    rfl
  · rfl

/-! ## Reading over a field -/

/-- Inside quotes, a character that is no quote is kept. -/
theorem scan_inside {c : Char} (h : c ≠ '"') (rest : List Char) :
    scan true (c :: rest) = (scan true rest).map (extendFirst c) := by
  simp [scan, h]

/-- A quote that is not followed by another one closes the quotes. -/
theorem scan_closing {rest : List Char} (h : rest.head? ≠ some '"') :
    scan true ('"' :: rest) = scan false rest := by
  cases rest with
  | nil => simp [scan]
  | cons c rest =>
      have hQuote : c ≠ '"' := by simpa using h
      simp [scan, hQuote]

theorem scan_doubled (s : List Char) {rest : List Char} (h : rest.head? ≠ some '"') :
    scan true (doubled s ++ '"' :: rest) = (scan false rest).map (prependFirst s) := by
  induction s with
  | nil =>
      have hId : prependFirst [] = id := rfl
      rw [hId, Option.map_id_fun]
      exact scan_closing h
  | cons c s ih =>
      have hCons : prependFirst (c :: s) = extendFirst c ∘ prependFirst s := rfl
      rw [hCons, ← Option.map_map, ← ih]
      by_cases hQuote : c = '"'
      · subst hQuote
        rfl
      · rw [doubled_cons hQuote, List.cons_append, scan_inside hQuote]

theorem scan_unquoted {s : List Char} (h : ∀ c ∈ s, c ≠ '"' ∧ c ≠ ',') (rest : List Char) :
    scan false (s ++ rest) = (scan false rest).map (prependFirst s) := by
  induction s with
  | nil =>
      have hId : prependFirst [] = id := rfl
      rw [hId, Option.map_id_fun]
      rfl
  | cons c s ih =>
      have hCons : prependFirst (c :: s) = extendFirst c ∘ prependFirst s := rfl
      obtain ⟨hQuote, hComma⟩ := h c List.mem_cons_self
      rw [hCons, ← Option.map_map, ← ih fun d hd => h d (List.mem_cons_of_mem c hd),
        List.cons_append, scan_plain _ hQuote hComma]

/-- Reading over a written field puts its text in front of what follows. -/
theorem scan_quoteField (s : String) {rest : List Char} (h : rest.head? ≠ some '"') :
    scan false ((quoteField s).toList ++ rest) = (scan false rest).map (prependFirst s.toList) := by
  rw [toList_quoteField]
  by_cases hQuotes : needsQuotes s
  · rw [if_pos hQuotes, List.cons_append, List.append_assoc, List.singleton_append,
      ← scan_doubled s.toList h]
    rfl
  · have hPlain : ∀ c ∈ s.toList, c ≠ '"' ∧ c ≠ ',' := by
      intro c hc
      constructor
      · rintro rfl
        exact hQuotes (needsQuotes_iff.mpr (.inr hc))
      · rintro rfl
        exact hQuotes (needsQuotes_iff.mpr (.inl hc))
    rw [if_neg hQuotes]
    exact scan_unquoted hPlain rest

/-- Reading over a written field and the comma behind it. Whatever comes next is read from
outside quotes, also when it begins with one. -/
theorem scan_quoteField_comma (s : String) (rest : List Char) :
    scan false ((quoteField s).toList ++ ',' :: rest) = (scan false rest).map (s.toList :: ·) := by
  have hField : scan false ((quoteField s).toList ++ ',' :: rest) =
      (scan false (',' :: rest)).map (prependFirst s.toList) := scan_quoteField s (by simp)
  have hComma : scan false (',' :: rest) = (scan false rest).map ([] :: ·) := by simp [scan]
  rw [hField, hComma, Option.map_map]
  congr 1
  funext found
  simp

/-! ## Reading a line -/

/-- A line of written fields is read back. -/
theorem scan_joined {fields : List String} (h : fields ≠ []) :
    scan false ([','].intercalate (fields.map fun field => (quoteField field).toList)) =
      some (fields.map String.toList) := by
  induction fields with
  | nil => exact absurd rfl h
  | cons field rest ih =>
      cases rest with
      | nil =>
          have hField : scan false ((quoteField field).toList ++ []) =
              (scan false []).map (prependFirst field.toList) := scan_quoteField field (by simp)
          rw [List.append_nil] at hField
          rw [List.map_singleton, List.intercalate_singleton, hField]
          simp [scan]
      | cons next rest =>
          have hRest := ih (List.cons_ne_nil next rest)
          rw [List.map_cons] at hRest
          rw [List.map_cons, List.map_cons, List.intercalate_cons_cons, List.append_assoc,
            List.singleton_append, scan_quoteField_comma, hRest]
          rfl

/-- The fields of a line of written fields. -/
theorem split_joined {fields : List String} (h : fields ≠ []) :
    split (",".intercalate (fields.map quoteField)) = .ok fields := by
  have hLine : (",".intercalate (fields.map quoteField)).toList =
      [','].intercalate (fields.map fun field => (quoteField field).toList) := by
    rw [String.toList_intercalate, List.map_map]
    rfl
  rw [split, hLine, scan_joined h]
  simp

/-! ## A line that goes on -/

/-- Written fields, with a comma behind each of them. -/
def written (fields : List String) : String :=
  .join (fields.map fun field => quoteField field ++ ",")

theorem toList_written_cons (field : String) (rest : List String) (line : String) :
    (written (field :: rest) ++ line).toList =
      (quoteField field).toList ++ ',' :: (written rest ++ line).toList := by
  simp [written, String.join_cons]

/-- Reading over written fields puts them in front of the fields that follow. -/
theorem scan_written (fields : List String) (line : String) :
    scan false (written fields ++ line).toList =
      (scan false line.toList).map (fields.map String.toList ++ ·) := by
  induction fields with
  | nil =>
      have hId : (fun found : List (List Char) => [] ++ found) = id := rfl
      have hLine : written [] ++ line = line := by simp [written]
      rw [hLine, List.map_nil, hId, Option.map_id_fun]
      rfl
  | cons field rest ih =>
      rw [toList_written_cons, scan_quoteField_comma, ih, Option.map_map]
      rfl

theorem toOption_split (line : String) :
    (split line).toOption = (scan false line.toList).map (List.map .ofList) := by
  unfold split
  cases scan false line.toList <;> rfl

/-- A line that begins with written fields has these fields, and then the fields of the rest. -/
theorem split_written_append (fields : List String) (line : String) :
    (split (written fields ++ line)).toOption = (split line).toOption.map (fields ++ ·) := by
  rw [toOption_split, toOption_split, scan_written, Option.map_map, Option.map_map]
  congr 1
  funext found
  simp [Function.comp_def]

/-- **Quoting is undone by splitting.** Written fields with commas between them
are read back exactly as they were, whatever they hold, unless there are none
of them: an empty line has one field, which is empty.  And written fields at
the front of a line, with a comma behind each, add themselves to what the rest
of the line is read as, which begins outside quotes again; the line can be read
just when the rest can. -/
theorem quoting_undone_by_splitting (fields : List String) :
    (split (",".intercalate (fields.map quoteField)) = .ok fields ↔ fields ≠ []) ∧
    ∀ line : String,
      (split (written fields ++ line)).toOption = (split line).toOption.map (fields ++ ·) := by
  refine ⟨⟨?_, split_joined⟩, split_written_append fields⟩
  rintro h rfl
  have hEmpty : split "" = .ok [""] := rfl
  rw [List.map_nil, String.intercalate_nil, hEmpty] at h
  cases h

/-- Quotes at both ends, a comma, a line break and an empty field. -/
example :
    split (",".intercalate (["\"a\"", "b,c", "", "d\"\n", "\"\""].map quoteField)) =
      .ok ["\"a\"", "b,c", "", "d\"\n", "\"\""] := rfl

end FlavorTable.Csv
