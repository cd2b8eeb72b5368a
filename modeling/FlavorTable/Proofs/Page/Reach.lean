import FlavorTable.Proofs.Page.Answer
import FlavorTable.Proofs.Text.Names

/-!
# Rows that the fields can ask for

The table field and the name fields are read differently.  The table reader
keeps the white space around a flavor and accepts commas between quotes, while
the name reader strips the one and divides at the others.  So the table can
hold flavors that no list of names can mention, and their rows are never shown
as an answer, whatever the query fields say.

All other rows can be asked for.  Named for both lists, a flavor is requested
and rescued by the union, and then neither the maker nor the order of the rows
matters.

## Main results

* `showsInResult_drawn_iff` — the table of the result shows the rows asked for.
* `exists_asksFor_iff` — some query asks for a row when its flavor is a name.
* `fields_reach_names` — what name fields are read as, and which rows they reach.
-/

namespace FlavorTable

namespace Page

/-- The row is in the table that is shown as the result of the query. -/
def ShowsInResult (events : List Event) (row : Row) : Prop :=
  ∃ count records others, contents (.tab tableTab) events =
      atTop (.markdown (announcement "Outer ∩ Inner" count) :: .table records :: others) ∧
    row.record ∈ records

variable {form : Form String} {compare : Bool} {rows : List Row} {row : Row}

theorem atTop_injective {a b : List Call} (h : atTop a = atTop b) : a = b := by
  have hCalls := congrArg calls h
  rwa [calls_atTop, calls_atTop] at hCalls

/-- A page that shows a set of rows as its answer shows each of them in the table. -/
theorem ShowsAnswer.showsInResult_iff {events : List Event} {result : RowSet}
    (h : ShowsAnswer events result) : ShowsInResult events row ↔ row ∈ result := by
  rw [ShowsInResult, h.table]
  by_cases hEmpty : result.rows.isEmpty = true
  · have hNone : row ∉ result := by
      rw [← RowSet.mem_rows, List.isEmpty_iff.mp hEmpty]
      exact List.not_mem_nil
    rw [if_pos hEmpty]
    constructor
    · rintro ⟨count, records, others, hTable, -⟩
      obtain ⟨-, hNotice⟩ := List.cons.inj (atTop_injective hTable)
      cases hNotice
    · intro hRow
      exact absurd hRow hNone
  · rw [if_neg hEmpty]
    constructor
    · rintro ⟨count, records, others, hTable, hRecord⟩
      obtain ⟨-, hRecords⟩ := List.cons.inj (atTop_injective hTable)
      obtain ⟨hRecords, -⟩ := List.cons.inj hRecords
      rw [← Call.table.inj hRecords, Row.mem_records] at hRecord
      exact RowSet.mem_rows.mp hRecord
    · intro hRow
      exact ⟨_, _, _, rfl, Row.mem_records.mpr (RowSet.mem_rows.mpr hRow)⟩

theorem showsInResult_drawn_iff :
    ShowsInResult (drawn form compare rows) row ↔ form.AsksFor rows row :=
  (showsAnswer_drawn form compare rows).showsInResult_iff.trans mem_result_planOf_iff

/-- Some texts in the query fields ask for a row of the table when its flavor is a name. -/
theorem exists_asksFor_iff (hRow : row ∈ rows) (s : String) :
    (∃ form : Form String, form.rowsText = s ∧ form.AsksFor rows row) ↔
      Text.IsName row.flavor := by
  constructor
  · rintro ⟨form, -, -, hFlavor, -⟩
    exact Text.isName_of_mem_names hFlavor
  · intro hName
    -- Listed twice, the flavor is asked for whatever the maker is.
    have hListed : row.flavor ∈ Text.names row.flavor := by
      rw [hName.names_eq]
      exact List.mem_singleton_self _
    exact ⟨⟨s, row.flavor, "", row.flavor⟩, rfl, hRow, hListed, .inl hListed⟩

theorem exists_shown_iff {s : String} (hParse : Csv.parse s = .ok rows) (hRow : row ∈ rows)
    (compare : Bool) :
    (∃ (form : Form String) (page : Rendering), form.rowsText = s ∧
        (render form.typed ⟨true, compare⟩).outcome = .ok page ∧ ShowsInResult page.events row) ↔
      Text.IsName row.flavor := by
  rw [← exists_asksFor_iff hRow s]
  constructor
  · rintro ⟨form, page, rfl, hPage, hShown⟩
    rw [outcome_render_of_parse form compare hParse] at hPage
    cases hPage
    exact ⟨form, rfl, showsInResult_drawn_iff.mp hShown⟩
  · rintro ⟨form, rfl, hAsked⟩
    exact ⟨form, _, rfl, outcome_render_of_parse form compare hParse,
      showsInResult_drawn_iff.mpr hAsked⟩

/-- **What name fields can express.** A name field is read as names only, and
every list of names is read from its names between commas, with any white space
around them and any number of blank entries between them.  So a row of a table
that can be read is shown in the result for some texts in the three query
fields exactly when its flavor is not empty, has no comma, and has no white
space at its ends. -/
theorem fields_reach_names :
    (∀ s, ∀ name ∈ Text.names s, name ≠ "" ∧ ',' ∉ name.toList ∧ Text.strip name = name) ∧
    (∀ entries listed, Text.Lists entries listed →
      Text.names (.ofList ([','].intercalate entries)) = listed) ∧
    ∀ s rows, Csv.parse s = .ok rows → ∀ row ∈ rows, ∀ compare,
      (∃ (form : Form String) (page : Rendering), form.rowsText = s ∧
          (render form.typed ⟨true, compare⟩).outcome = .ok page ∧
          ShowsInResult page.events row) ↔
        row.flavor ≠ "" ∧ ',' ∉ row.flavor.toList ∧ Text.Trimmed row.flavor := by
  refine ⟨?_, fun _ _ => Text.names_intercalate, ?_⟩
  · intro s name hName
    have hIsName := Text.isName_of_mem_names hName
    exact ⟨hIsName.nonempty, hIsName.undivided, hIsName.stripped⟩
  · intro s rows hParse row hRow compare
    rw [exists_shown_iff hParse hRow compare, Text.isName_iff]

/-- A table with a flavor that holds a comma. -/
def divided : String := "table\nBen,\"Mint, fresh\",Misc\nZoe,Coffee,Bean"

/-- The entries of a list of two names. -/
def spacedEntries : List (List Char) :=
  [[' '] ++ ("Mint".toList ++ [' ']), ['\t'], [] ++ ("Coffee".toList ++ [])]

theorem fields_reach_coffee_only :
    ("Mint" ≠ "" ∧ ',' ∉ "Mint".toList ∧ Text.strip "Mint" = "Mint") ∧
      Text.names " Mint ,\t,Coffee" = ["Mint", "Coffee"] ∧
      (∃ (form : Form String) (page : Rendering), form.rowsText = divided ∧
        (render form.typed ⟨true, true⟩).outcome = .ok page ∧
        ShowsInResult page.events ⟨"Zoe", "Coffee", "Bean"⟩) ∧
      ¬∃ (form : Form String) (page : Rendering), form.rowsText = divided ∧
        (render form.typed ⟨true, true⟩).outcome = .ok page ∧
        ShowsInResult page.events ⟨"Ben", "Mint, fresh", "Misc"⟩ := by
  obtain ⟨hNames, hLists, hReach⟩ := fields_reach_names
  have hMint := hNames "Mint" "Mint" (by decide)
  have hCoffee := hNames "Coffee" "Coffee" (by decide)
  have hParse : Csv.parse divided =
      .ok [⟨"Ben", "Mint, fresh", "Misc"⟩, ⟨"Zoe", "Coffee", "Bean"⟩] := by
    rfl
  have hEntries : Text.Lists spacedEntries ["Mint", "Coffee"] :=
    .name ⟨hMint.1, hMint.2.1, hMint.2.2⟩ rfl rfl
      (.blank rfl (.name ⟨hCoffee.1, hCoffee.2.1, hCoffee.2.2⟩ rfl rfl .nil))
  have hText : String.ofList ([','].intercalate spacedEntries) = " Mint ,\t,Coffee" := by
    decide
  have hRead := hLists _ _ hEntries
  rw [hText] at hRead
  refine ⟨hMint, hRead, ?_, ?_⟩
  · exact (hReach divided _ hParse _ (by decide) true).mpr (by decide)
  · rw [hReach divided _ hParse _ (by decide) true]
    decide

end Page

end FlavorTable
