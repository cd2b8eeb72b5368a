import FlavorTable.Proofs.Page.Announcements
import FlavorTable.Proofs.Page.Pressed

/-!
# The answer on the page

With a table that can be read and the button pressed, the page answers the
request in its fields.  What it shows of the answer is determined by the set of
rows that the form asks for: the tab with the result table has their number,
their records and the text to save them, or a notice if there are none, and the
tab with the result text has their grid.  Everything else that the page shows
are rows as well, and wherever rows are announced, their number is the number
of records shown.

## Main results

* `mem_result_planOf_iff` — the result holds the rows that the form asks for.
* `showsAnswer_drawn` — the page shows its result.
* `page_shows_rows_asked_for` — the page from its texts to what is shown.
-/

namespace FlavorTable.Page

/-- The row is one of those that the form asks for: a row of the table with a
flavor of the first list, and with a flavor of the second list or a matching
maker and no later row of its product. -/
def Form.AsksFor (form : Form String) (rows : List Row) (row : Row) : Prop :=
  row ∈ rows ∧ row.flavor ∈ Text.names form.intersectFlavors ∧
    (row.flavor ∈ Text.names form.unionFlavors ∨
      endsInWord row.maker (Text.strip form.makerSuffix) = true ∧ row.IsLast rows)

instance (form : Form String) (rows : List Row) (row : Row) : Decidable (form.AsksFor rows row) :=
  inferInstanceAs (Decidable (_ ∧ _ ∧ (_ ∨ _ ∧ _)))

/-- A page shows a set of rows as its answer: in a table that can be saved, or by
a notice if there are none, and as a grid.  Wherever it announces rows, it shows
as many. -/
structure ShowsAnswer (events : List Event) (result : RowSet) : Prop where
  table : contents (.tab tableTab) events =
    atTop (.markdown (announcement "Outer ∩ Inner" result.size) ::
      if result.rows.isEmpty then [.info "Empty result set."]
      else
        [.table (Row.records result.rows),
          .downloadButton "Download CSV" (Csv.write result.rows Csv.defaultDelimiter)
            "result.csv" "text/csv"])
  text : ∃ grid, Grid.write result.rows Grid.defaultLimit = .ok grid ∧
    contents (.tab textTab) events = atTop [.code grid "text"]
  counts : CountsHold events

variable {form : Form String} {compare : Bool} {rows : List Row} {row : Row}

/-- The result of the plan holds the rows that the form asks for. -/
theorem mem_result_planOf_iff :
    row ∈ (planOf (Engine.holding rows) form.asked).result ↔ form.AsksFor rows row := by
  rw [result_planOf, Engine.mem_selection]
  rfl

theorem eq_filter_of_mem_iff {result : RowSet} (h : ∀ row, row ∈ result ↔ form.AsksFor rows row) :
    result = .ofList (rows.filter fun row => form.AsksFor rows row) := by
  apply RowSet.ext
  intro row
  rw [h, RowSet.mem_ofList, List.mem_filter, decide_eq_true_eq]
  exact ⟨fun hRow => ⟨hRow.1, hRow⟩, And.right⟩

theorem resultTable_eq (result : RowSet) :
    resultTable result =
      atTop (.markdown (announcement "Outer ∩ Inner" result.size) ::
        if result.rows.isEmpty then [.info "Empty result set."]
        else
          [.table (Row.records result.rows),
            .downloadButton "Download CSV" (Csv.write result.rows Csv.defaultDelimiter)
              "result.csv" "text/csv"]) := by
  rw [resultTable, showRows]
  cases result.rows.isEmpty <;> rfl

theorem countsHold_drawn (form : Form String) (compare : Bool) (rows : List Row) :
    CountsHold (drawn form compare rows) :=
  ((countsHold_frame.append (countsHold_allRows rows)).append countsHold_runButton).append
    (countsHold_answer _ _ _)

/-- A page that was drawn shows the result of its plan. -/
theorem showsAnswer_drawn (form : Form String) (compare : Bool) (rows : List Row) :
    ShowsAnswer (drawn form compare rows) (planOf (Engine.holding rows) form.asked).result := by
  refine
    { table := ?_
      text := ?_
      counts := countsHold_drawn form compare rows }
  · rw [contents_drawn_tableTab, resultTable_eq]
  · refine ⟨_, Grid.write_eq_ok_iff.mpr ⟨by decide, rfl⟩, ?_⟩
    rw [contents_drawn_textTab]
    rfl

/-- **The page shows the rows that were asked for.** With texts in all fields, a
table that can be read and the button pressed, the page is drawn.  Its answer is
the set of the rows that the form asks for, and it shows that set in all its
renderings. -/
theorem page_shows_rows_asked_for (form : Form String) (compare : Bool) {rows : List Row}
    (hParse : Csv.parse form.rowsText = .ok rows) :
    ∃ page result, (render form.typed ⟨true, compare⟩).outcome = .ok page ∧
      (∀ row, row ∈ result ↔ form.AsksFor rows row) ∧ ShowsAnswer page.events result :=
  ⟨_, _, outcome_render_of_parse form compare hParse, fun _ => mem_result_planOf_iff,
    showsAnswer_drawn form compare rows⟩

/-- A request over a table in which one product is entered twice. -/
def revised : Form String where
  rowsText := "table\nBen Co,Mint,Misc\nBen Co,Mint,Herb\nZoe,Mint,Misc\nZoe,Coffee,Bean"
  intersectFlavors := "Mint, Coffee"
  makerSuffix := " Co"
  unionFlavors := "Coffee,"

theorem page_shows_revised :
    ∃ page, (render revised.typed ⟨true, true⟩).outcome = .ok page ∧
      contents (.tab tableTab) page.events =
        atTop
          [.markdown "**Outer ∩ Inner** — _rows: 2_",
            .table
              [[("Maker", "Ben Co"), ("Flavor", "Mint"), ("BaseFlavor", "Herb")],
                [("Maker", "Zoe"), ("Flavor", "Coffee"), ("BaseFlavor", "Bean")]],
            .downloadButton "Download CSV"
              "Maker,Flavor,BaseFlavor\nBen Co,Mint,Herb\nZoe,Coffee,Bean" "result.csv"
              "text/csv"] := by
  have hParse : Csv.parse revised.rowsText =
      .ok [⟨"Ben Co", "Mint", "Misc"⟩, ⟨"Ben Co", "Mint", "Herb"⟩, ⟨"Zoe", "Mint", "Misc"⟩,
        ⟨"Zoe", "Coffee", "Bean"⟩] := by
    rfl
  obtain ⟨page, result, hPage, hMem, hShown⟩ := page_shows_rows_asked_for revised true hParse
  refine ⟨page, hPage, ?_⟩
  rw [hShown.table, eq_filter_of_mem_iff hMem]
  decide +kernel

end FlavorTable.Page
