import FlavorTable.Proofs.Csv.RoundTrip
import FlavorTable.Proofs.Page.Pressed

/-!
# Entering a downloaded table again

The page offers the result of a query as a text.  Entered in the table field,
with the other fields as they were, that text gives the same result again and
is offered again, so it is a fixed point of the page.

Three things come together.  The rows of a result were read from the text of
the table field, and rows that were read hold no line breaks, whatever the
visitor typed, so the written result is read back.  It is read back in
ascending order and without the rows that the query left out, so other rows
may now be the last ones of their products; the query selects all of them
nevertheless.  And what the page shows of a result depends on the result only.

## Main results

* `parse_write_result` — the written result of a query is read back.
* `result_planOf_again` — the result, entered as a table, is its own result.
* `download_is_fixed_point` — the page over its own download.
-/

namespace FlavorTable.Page

variable {form : Form String} {compare : Bool} {rows : List Row}

/-! ## The result as a table -/

/-- The rows of a result were read from the table field, so no field holds a line break. -/
theorem breakFree_of_mem_result (h : Csv.parse form.rowsText = .ok rows) {row : Row}
    (hRow : row ∈ (planOf (Engine.holding rows) form.asked).result) : row.BreakFree := by
  rw [result_planOf, Engine.mem_selection] at hRow
  exact Csv.breakFree_of_parse h hRow.1

/-- The written result is read back in ascending order. -/
theorem parse_write_result (h : Csv.parse form.rowsText = .ok rows) :
    Csv.parse (Csv.write (planOf (Engine.holding rows) form.asked).result.rows
        Csv.defaultDelimiter) =
      .ok (Row.sorted (planOf (Engine.holding rows) form.asked).result.rows) :=
  Csv.parse_write fun _ hRow => breakFree_of_mem_result h hRow

/-- The same request on the table of its result has that result again. -/
theorem result_planOf_again (rows : List Row) (request : Request) :
    (planOf (Engine.holding (Row.sorted (planOf (Engine.holding rows) request).result.rows))
      request).result = (planOf (Engine.holding rows) request).result := by
  rw [result_planOf, result_planOf]
  apply Engine.selection_over_selection
  intro row
  rw [(Row.sorted_perm _).mem_iff, RowSet.mem_rows]

/-! ## The page over its download -/

/-- A page shows a result as a table, offered to be saved as `data`, and as a
grid.  It offers nothing else. -/
structure ShowsResult (events : List Event) (result : RowSet) (data : String) : Prop where
  table : contents (.tab tableTab) events =
    atTop [.markdown (announcement "Outer ∩ Inner" result.size),
      .table (Row.records result.rows),
      .downloadButton "Download CSV" data "result.csv" "text/csv"]
  text : contents (.tab textTab) events =
    atTop [.code (Grid.draw result.rows Grid.defaultLimit) "text"]
  offered : saved events = [data]

/-- A page that was drawn shows the result of its request, unless that is empty. -/
theorem showsResult_drawn (form : Form String) (compare : Bool) (rows : List Row)
    (h : (planOf (Engine.holding rows) form.asked).result.rows.isEmpty = false) :
    ShowsResult (drawn form compare rows) (planOf (Engine.holding rows) form.asked).result
      (Csv.write (planOf (Engine.holding rows) form.asked).result.rows Csv.defaultDelimiter) := by
  refine
    { table := ?_
      text := ?_
      offered := ?_ }
  · rw [contents_drawn_tableTab]
    simp [resultTable, showRows, atTop, h, RowSet.size]
  · rw [contents_drawn_textTab]
    rfl
  · rw [saved_drawn, h]
    rfl

/-- A text is offered when the table can be read and the result has rows, and it
is the written result. -/
theorem exists_of_mem_saved {page : Rendering}
    (hPage : (render form.typed ⟨true, compare⟩).outcome = .ok page) {data : String}
    (hData : data ∈ saved page.events) :
    ∃ rows, Csv.parse form.rowsText = .ok rows ∧ page.events = drawn form compare rows ∧
      (planOf (Engine.holding rows) form.asked).result.rows.isEmpty = false ∧
      data = Csv.write (planOf (Engine.holding rows) form.asked).result.rows
        Csv.defaultDelimiter := by
  cases hParse : Csv.parse form.rowsText with
  | error fault =>
      rw [outcome_render_of_fault form compare hParse] at hPage
      cases hPage
      simp [saved_refusal] at hData
  | ok rows =>
      rw [outcome_render_of_parse form compare hParse] at hPage
      cases hPage
      rw [saved_drawn] at hData
      cases hEmpty : (planOf (Engine.holding rows) form.asked).result.rows.isEmpty with
      | true => simp [hEmpty] at hData
      | false => exact ⟨rows, rfl, rfl, hEmpty, by simpa [hEmpty] using hData⟩

/-- The page over the written result of another shows that result. -/
theorem exists_render_again (compare : Bool) (hParse : Csv.parse form.rowsText = .ok rows)
    (hRows : (planOf (Engine.holding rows) form.asked).result.rows.isEmpty = false)
    {data : String}
    (hData : data = Csv.write (planOf (Engine.holding rows) form.asked).result.rows
      Csv.defaultDelimiter) :
    ∃ again, (render { form with rowsText := data }.typed ⟨true, compare⟩).outcome = .ok again ∧
      again.stopped = false ∧
      ShowsResult again.events (planOf (Engine.holding rows) form.asked).result data := by
  have hRead := parse_write_result hParse
  have hAgain := result_planOf_again rows form.asked
  rw [← hData] at hRead
  generalize planOf (Engine.holding rows) form.asked = plan at *
  let downloaded : Form String := { form with rowsText := data }
  have hDrawn : (render downloaded.typed ⟨true, compare⟩).outcome =
      .ok ⟨drawn downloaded compare (Row.sorted plan.result.rows), downloaded.texts, false⟩ :=
    outcome_render_of_parse downloaded compare hRead
  -- The second request is the same, and so is its result on the rows of the first.
  have hAsked : downloaded.asked = form.asked := rfl
  have hShown := showsResult_drawn downloaded compare (Row.sorted plan.result.rows)
  rw [hAsked, hAgain, ← hData] at hShown
  exact ⟨_, hDrawn, rfl, hShown hRows⟩

/-- **A download is a fixed point of the page.** With texts in all fields and the
button pressed the page is drawn.  If it offers a text to be saved, this text
is read as the rows of the result in ascending order.  The page with this text
in the table field is then not stopped, and shows and offers the same. -/
theorem download_is_fixed_point (form : Form String) (compare : Bool) :
    ∃ page, (render form.typed ⟨true, compare⟩).outcome = .ok page ∧
      ∀ data ∈ saved page.events, ∃ rows plan again,
        Csv.parse form.rowsText = .ok rows ∧
        (do let engine ← Engine.ofRows rows
            engine.plan form.asked.query).outcome = .ok plan ∧
        Csv.parse data = .ok (Row.sorted plan.result.rows) ∧
        ShowsResult page.events plan.result data ∧
        (render { form with rowsText := data }.typed ⟨true, compare⟩).outcome = .ok again ∧
        again.stopped = false ∧
        ShowsResult again.events plan.result data := by
  obtain ⟨page, hPage⟩ := exists_render form compare
  refine ⟨page, hPage, ?_⟩
  intro data hData
  obtain ⟨rows, hParse, hEvents, hRows, hWritten⟩ := exists_of_mem_saved hPage hData
  obtain ⟨again, hAgain, hStopped, hShownAgain⟩ :=
    exists_render_again compare hParse hRows hWritten
  have hPlan : (do let engine ← Engine.ofRows rows
                   engine.plan form.asked.query).outcome =
      .ok (planOf (Engine.holding rows) form.asked) := outcome_plan_query _ _
  have hRead := parse_write_result hParse
  have hShown := showsResult_drawn form compare rows hRows
  rw [← hWritten] at hRead hShown
  rw [← hEvents] at hShown
  exact ⟨rows, _, again, hParse, hPlan, hRead, hShown, hAgain, hStopped, hShownAgain⟩

/-- A request over a table with blank lines, a quoted maker and a product entered twice. -/
def crowded : Form String where
  rowsText := "any\r\n\r\n\"Ben, A\",Mint,Misc\n\"Ben, A\",Mint,\"\"\"No\"\"\"\nBen,Mint,Misc"
  intersectFlavors := " Mint ,, Coffee"
  makerSuffix := " A "
  unionFlavors := ""

/-- What can be downloaded from it. -/
def crowdedResult : String :=
  "Maker,Flavor,BaseFlavor\n\"Ben, A\",Mint,\"\"\"No\"\"\""

theorem download_of_crowded :
    ∃ again, (render { crowded with rowsText := crowdedResult }.typed ⟨true, true⟩).outcome =
        .ok again ∧
      again.stopped = false ∧ saved again.events = [crowdedResult] := by
  obtain ⟨page, hPage, hAgain⟩ := download_is_fixed_point crowded true
  have hParse : Csv.parse crowded.rowsText =
      .ok [⟨"Ben, A", "Mint", "Misc"⟩, ⟨"Ben, A", "Mint", "\"No\""⟩, ⟨"Ben", "Mint", "Misc"⟩] := by
    rfl
  have hOffered : crowdedResult ∈ saved page.events := by
    rw [outcome_render_of_parse crowded true hParse] at hPage
    cases hPage
    rw [saved_drawn]
    decide +kernel
  obtain ⟨_, _, again, -, -, -, -, hRender, hStopped, hShown⟩ := hAgain crowdedResult hOffered
  exact ⟨again, hRender, hStopped, hShown.offered⟩

end FlavorTable.Page
