import FlavorTable.Proofs.Lookup.Scan
import FlavorTable.Row.Sample

/-!
# What a query answers

The query is answered through three indexes, and they do not treat repeated
products alike: the grouped indexes keep every row, the primary index the last
one of each product.  So a row of a requested flavor is in the answer when its
flavor is also listed for the union, overwritten or not; or when its maker
matches and it is the last row of its product.

Where no product has two base flavors, the difference cannot be seen, and the
answer is the filter of the table by the condition of the query.

## Main results

* `outcome_query_ofTexts` — the answer in terms of seeks and scan.
* `mem_selection` — which rows these are.
* `query_answers_rows_asked_for` — the meaning of a query on a table.
-/

namespace FlavorTable

/-- The query for rows of one of the flavors in `intersect` that have a maker
ending in `suffix` or one of the flavors in `union`. -/
def Query.ofTexts (intersect : TextKeys) (suffix : String) (union : TextKeys) : Query :=
  ⟨intersect.value, .text suffix, union.value⟩

namespace Engine

/-- The rows that the seeks and the scan of a query leave. -/
def selection (engine : Engine) (intersect : TextKeys) (suffix : String) (union : TextKeys) :
    RowSet :=
  engine.rowsByFlavor intersect.keys ∩
    (engine.rowsByMaker (.text suffix) ∪ engine.rowsByFlavor union.keys)

theorem outcome_query_ofTexts (engine : Engine) (intersect : TextKeys) (suffix : String)
    (union : TextKeys) :
    (engine.query (.ofTexts intersect suffix union)).outcome =
      .ok (engine.selection intersect suffix union) :=
  engine.outcome_query_of_keys intersect.keys_value union.keys_value

variable {rows : List Row} {intersect union : TextKeys} {suffix : String}

/-- The rows that a query selects from a table. -/
theorem mem_selection {row : Row} :
    row ∈ (holding rows).selection intersect suffix union ↔
      row ∈ rows ∧ row.flavor ∈ intersect ∧
        (row.flavor ∈ union ∨ endsInWord row.maker suffix = true ∧ row.IsLast rows) := by
  rw [selection, RowSet.mem_inter, RowSet.mem_union, mem_rowsByFlavor, mem_rowsByFlavor,
    mem_rowsByMaker, TextKeys.mem_keys_iff, TextKeys.mem_keys_iff]
  constructor
  · intro h
    obtain ⟨⟨hMem, hIntersect⟩, hInner⟩ := h
    refine ⟨hMem, hIntersect, ?_⟩
    rcases hInner with hMaker | hUnion
    · exact .inr hMaker
    · exact .inl hUnion.2
  · intro h
    obtain ⟨hMem, hIntersect, hFound⟩ := h
    refine ⟨⟨hMem, hIntersect⟩, ?_⟩
    rcases hFound with hUnion | hMaker
    · exact .inr ⟨hMem, hUnion⟩
    · exact .inl hMaker

/-- In a consistent table a query selects what filtering by its condition leaves. -/
theorem selection_of_consistent (h : Row.Consistent rows) :
    (holding rows).selection intersect suffix union =
      .ofList (rows.filter fun row =>
        (endsInWord row.maker suffix || row.flavor ∈ union) && row.flavor ∈ intersect) := by
  apply RowSet.ext
  intro row
  rw [mem_selection, RowSet.mem_ofList, List.mem_filter, Bool.and_eq_true, Bool.or_eq_true,
    decide_eq_true_eq, decide_eq_true_eq]
  constructor
  · intro hRow
    obtain ⟨hMem, hIntersect, hFound⟩ := hRow
    refine ⟨hMem, ?_, hIntersect⟩
    rcases hFound with hUnion | hMaker
    · exact .inr hUnion
    · exact .inl hMaker.1
  · intro hRow
    obtain ⟨hMem, hFound, hIntersect⟩ := hRow
    refine ⟨hMem, hIntersect, ?_⟩
    -- Consistency makes every row the last of its product, as the scan wants it.
    rcases hFound with hMaker | hUnion
    · exact .inr ⟨hMaker, h.isLast hMem⟩
    · exact .inl hUnion

/-- **Meaning of a query.** On every table a query succeeds.  Its answer holds
the rows of the requested flavors that have a flavor of the union, or a
matching maker and no later row of the same product; in a consistent table
that is the filter by the condition of the query. -/
theorem query_answers_rows_asked_for (rows : List Row) (intersect union : TextKeys)
    (suffix : String) :
    ∃ answer : RowSet,
      (do let engine ← ofRows rows
          engine.query (.ofTexts intersect suffix union)).outcome = .ok answer ∧
      (∀ row, row ∈ answer ↔
        row ∈ rows ∧ row.flavor ∈ intersect ∧
          (row.flavor ∈ union ∨ endsInWord row.maker suffix = true ∧ row.IsLast rows)) ∧
      (Row.Consistent rows →
        answer = .ofList (rows.filter fun row =>
          (endsInWord row.maker suffix || row.flavor ∈ union) && row.flavor ∈ intersect)) := by
  refine ⟨(holding rows).selection intersect suffix union, ?_, fun row => mem_selection,
    selection_of_consistent⟩
  rw [outcome_ofRows_bind]
  exact outcome_query_ofTexts _ intersect suffix union

/-- In the sample table no maker sells a flavor twice, and the answer is a filter of it. -/
theorem query_answers_sample :
    ∃ answer : RowSet,
      (do let engine ← ofRows Row.sample
          engine.query (.ofTexts (.list ["Mint", "Coffee", "Vanilla"]) "Creamery"
            (.one "Vanilla"))).outcome = .ok answer ∧
      answer.rows =
        [⟨"Baskin-Robbins", "Vanilla", "Vanilla"⟩, ⟨"Cold Stone Creamery", "Coffee", "Misc"⟩,
          ⟨"Cold Stone Creamery", "Mint", "Misc"⟩,
          ⟨"Marble Slab Creamery", "Vanilla", "Vanilla"⟩] := by
  obtain ⟨answer, hAnswer, -, hFilter⟩ := query_answers_rows_asked_for Row.sample
    (.list ["Mint", "Coffee", "Vanilla"]) (.one "Vanilla") "Creamery"
  refine ⟨answer, hAnswer, ?_⟩
  rw [hFilter (by decide)]
  decide

/-- An overwritten row is not found by its maker, and its successor is. -/
example :
    ((holding [⟨"Cold Stone Creamery", "Mint", "Misc"⟩,
        ⟨"Cold Stone Creamery", "Mint", "Vanilla"⟩]).selection
      (.one "Mint") "Creamery" (.list [])).rows = [⟨"Cold Stone Creamery", "Mint", "Vanilla"⟩] := by
  decide

end Engine

end FlavorTable
