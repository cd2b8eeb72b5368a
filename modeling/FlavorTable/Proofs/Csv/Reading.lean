import FlavorTable.Csv.Parse
import FlavorTable.Proofs.Run.FirstFailure
import FlavorTable.Proofs.Text.Content

/-!
# What reading a table gives

A table is read line by line, and a row is made of the characters of its line.
Lines hold no break characters, so whatever text a table was read from, no
field of its rows holds one either.

## Main results

* `readRow_eq_ok_iff` — a line is read as a row when the row's fields are what
  the reader finds on it.
* `mem_of_scan` — reading a line makes no characters up.
* `parse_eq_ok_iff` — reading a table is reading its lines with content.
* `breakFree_of_parse` — the rows of a table that was read are break-free.
-/

namespace FlavorTable

open FlavorTable.Text

/-- A row none of whose fields holds a line break. -/
def Row.BreakFree (row : Row) : Prop := ∀ field ∈ row.fields, Text.BreakFree field.toList

instance (row : Row) : Decidable row.BreakFree :=
  List.decidableBAll (fun field : String => Text.BreakFree field.toList) row.fields

namespace Csv

/-! ## Characters of a line -/

theorem mem_of_mem_extendFirst {c d : Char} {pieces : List (List Char)} {piece : List Char}
    (h : piece ∈ extendFirst c pieces) (hd : d ∈ piece) : d = c ∨ ∃ old ∈ pieces, d ∈ old := by
  rcases mem_extendFirst h with hOld | rfl | ⟨old, hOld, rfl⟩
  · exact .inr ⟨piece, hOld, hd⟩
  · exact .inl (List.mem_singleton.mp hd)
  · rcases List.mem_cons.mp hd with rfl | hd
    · exact .inl rfl
    · exact .inr ⟨old, hOld, hd⟩

/-- Every character of a field stands in the line. -/
theorem mem_of_scan {inside : Bool} {line : List Char} {fields : List (List Char)}
    (h : scan inside line = some fields) {field : List Char} (hField : field ∈ fields) {c : Char}
    (hc : c ∈ field) : c ∈ line := by
  fun_induction scan inside line generalizing fields field with
  | case1 =>
      cases h
      rw [List.mem_singleton.mp hField] at hc
      cases hc
  | case2 => cases h
  | case3 rest ih | case7 rest _ ih => exact List.mem_cons_of_mem _ (ih h hField hc)
  | case4 rest _ ih =>
      obtain ⟨pieces, hRest, rfl⟩ := Option.map_eq_some_iff.mp h
      rcases List.mem_cons.mp hField with rfl | hMem
      · cases hc
      · exact List.mem_cons_of_mem _ (ih hRest hMem hc)
  | case5 d rest _ _ ih | case8 d rest _ _ ih =>
      obtain ⟨pieces, hRest, rfl⟩ := Option.map_eq_some_iff.mp h
      rcases mem_of_mem_extendFirst hField hc with rfl | ⟨old, hOld, hc⟩
      · exact List.mem_cons_self
      · exact List.mem_cons_of_mem _ (ih hRest hOld hc)
  | case6 rest ih =>
      obtain ⟨pieces, hRest, rfl⟩ := Option.map_eq_some_iff.mp h
      rcases mem_of_mem_extendFirst hField hc with rfl | ⟨old, hOld, hc⟩
      · exact List.mem_cons_self
      · exact List.mem_cons_of_mem _ (List.mem_cons_of_mem _ (ih hRest hOld hc))

/-! ## Rows of a table -/

/-- A line is read as the row whose fields it has. -/
theorem readRow_eq_ok_iff {line : String} {number : Nat} {row : Row} :
    readRow line number = .ok row ↔ split line = .ok row.fields := by
  unfold readRow
  cases hSplit : split line with
  | error fault => simp [bind, Except.bind]
  | ok fields =>
      simp only [bind, Except.bind, Except.ok.injEq]
      rw [← Row.ofFields?_eq_some_iff]
      cases Row.ofFields? fields with
      | none => simp [throw, throwThe, MonadExceptOf.throw]
      | some found => simp [pure, Except.pure]

theorem mem_toList_of_split {line : String} {fields : List String} (h : split line = .ok fields)
    {field : String} (hField : field ∈ fields) {c : Char} (hc : c ∈ field.toList) :
    c ∈ line.toList := by
  unfold split at h
  cases hScan : scan false line.toList with
  | none =>
      rw [hScan] at h
      cases h
  | some pieces =>
      rw [hScan] at h
      cases h
      obtain ⟨piece, hPiece, rfl⟩ := List.mem_map.mp hField
      rw [String.toList_ofList] at hc
      exact mem_of_scan hScan hPiece hc

/-! ## Content -/

/-- The lines that are not blank, numbered among all of them. -/
def numberedContent (start : Nat) (all : List (List Char)) : List (List Char × Nat) :=
  (all.zipIdx start).filter fun numbered => !isBlankText numbered.1

theorem map_fst_numberedContent (start : Nat) (all : List (List Char)) :
    (numberedContent start all).map Prod.fst = all.filter fun line => !isBlankText line := by
  have hFilter : numberedContent start all =
      (all.zipIdx start).filter ((fun line => !isBlankText line) ∘ Prod.fst) := rfl
  rw [hFilter, ← List.filter_map, List.zipIdx_map_fst]

theorem map_fst_contentLines (text : String) :
    (contentLines text).map Prod.fst = content text.toList :=
  map_fst_numberedContent 1 _

theorem map_readRow_eq_iff {numbered : List (List Char × Nat)} {rows : List Row} :
    (numbered.map fun line => readRow (.ofList line.1) line.2) = rows.map .ok ↔
      ((numbered.map Prod.fst).map fun line => split (.ofList line)) =
        rows.map fun row => .ok row.fields := by
  induction numbered generalizing rows with
  | nil => cases rows <;> simp
  | cons line rest ih =>
      cases rows with
      | nil => simp
      | cons row others =>
          simp only [List.map_cons, List.cons.injEq, readRow_eq_ok_iff, ih]

/-- A table is read when its content is: a header, whatever it says, and lines with the
fields of the rows. -/
theorem parse_eq_ok_iff {text : String} {rows : List Row} :
    parse text = .ok rows ↔ ∃ header body, content text.toList = header :: body ∧
      (body.map fun line => split (.ofList line)) = rows.map fun row => .ok row.fields := by
  rw [← map_fst_contentLines]
  unfold parse
  cases contentLines text with
  | nil => simp
  | cons header body =>
      have hRead : (body.mapM fun line => readRow (.ofList line.1) line.2) = .ok rows ↔
          ((body.map Prod.fst).map fun line => split (.ofList line)) =
            rows.map fun row => .ok row.fields :=
        mapM_eq_ok_iff.trans map_readRow_eq_iff
      refine hRead.trans ⟨fun hBody => ⟨header.1, body.map Prod.fst, rfl, hBody⟩, ?_⟩
      rintro ⟨_, _, hContent, hBody⟩
      obtain ⟨-, rfl⟩ := List.cons.inj hContent
      exact hBody

/-- A row that was read stands on a line of the text. -/
theorem exists_line_of_parse {text : String} {rows : List Row} (h : parse text = .ok rows)
    {row : Row} (hRow : row ∈ rows) :
    ∃ line ∈ lines text.toList, split (.ofList line) = .ok row.fields := by
  obtain ⟨header, body, hContent, hBody⟩ := parse_eq_ok_iff.mp h
  have hRead : Except.ok row.fields ∈ body.map fun line => split (.ofList line) := by
    rw [hBody]
    exact List.mem_map_of_mem hRow
  obtain ⟨line, hLine, hSplit⟩ := List.mem_map.mp hRead
  have hMem : line ∈ content text.toList := by
    rw [hContent]
    exact List.mem_cons_of_mem header hLine
  exact ⟨line, (List.mem_filter.mp hMem).1, hSplit⟩

/-- No field of a row that was read holds a line break, whatever the text. -/
theorem breakFree_of_parse {text : String} {rows : List Row} (h : parse text = .ok rows)
    {row : Row} (hRow : row ∈ rows) : row.BreakFree := by
  obtain ⟨line, hLine, hSplit⟩ := exists_line_of_parse h hRow
  intro field hField c hc
  have hMem := mem_toList_of_split hSplit hField hc
  rw [String.toList_ofList] at hMem
  exact isBreak_eq_false_of_mem_lines hLine c hMem

end Csv

end FlavorTable
