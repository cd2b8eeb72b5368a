import FlavorTable.Proofs.Query.Answer
import FlavorTable.Proofs.Query.Stages

/-!
# Querying an answer again

An answer is a set of rows, so it can be entered as a table of its own, in any
order and with repetitions, and be queried again.  Which row is the last of
its product may then change, and a row that the scan found at first could be
overwritten in the new table by another row of the same product.

That does not happen to a row that depends on the scan.  If its flavor is not
listed for the union, every row of its product in the answer was found by the
scan as well, and a scan finds one row of a product only.  So the row is alone
with its product in the new table, however that is arranged.

## Main results

* `alone_of_mem_selection` — a row that only the scan can find is the only one
  of its product in the answer.
* `selection_over_selection` — the same query selects the whole answer again.
* `requery_gives_same_answer` — the same for runs of the query and its plan.
-/

namespace FlavorTable.Engine

variable {rows again : List Row} {intersect union : TextKeys} {suffix : String}

/-- What an answer holds of a product whose flavor is not listed for the union. -/
theorem alone_of_mem_selection {row other : Row}
    (hRow : row ∈ (holding rows).selection intersect suffix union) (hUnion : row.flavor ∉ union)
    (hOther : other ∈ (holding rows).selection intersect suffix union)
    (hProduct : other.product = row.product) : other = row := by
  have hFlavor : other.flavor = row.flavor := congrArg Prod.snd hProduct
  obtain ⟨-, -, hRow⟩ := mem_selection.mp hRow
  obtain ⟨-, -, hOther⟩ := mem_selection.mp hOther
  rw [hFlavor] at hOther
  have hRowLast := (hRow.resolve_left hUnion).2
  have hOtherLast := (hOther.resolve_left hUnion).2
  exact hOtherLast.unique hRowLast hProduct

/-- A table made of the rows of an answer is selected as a whole by the same query. -/
theorem selection_over_selection
    (h : ∀ row, row ∈ again ↔ row ∈ (holding rows).selection intersect suffix union) :
    (holding again).selection intersect suffix union =
      (holding rows).selection intersect suffix union := by
  apply RowSet.ext
  intro row
  rw [mem_selection]
  constructor
  · intro hAgain
    exact (h row).mp hAgain.1
  · intro hRow
    obtain ⟨-, hIntersect, hFound⟩ := mem_selection.mp hRow
    have hMem : row ∈ again := (h row).mpr hRow
    refine ⟨hMem, hIntersect, ?_⟩
    by_cases hUnion : row.flavor ∈ union
    · exact .inl hUnion
    · have hLast : row.IsLast again := by
        apply Row.isLast_of_alone hMem
        intro other hOther hProduct
        exact alone_of_mem_selection hRow hUnion ((h other).mp hOther) hProduct
      exact .inr ⟨(hFound.resolve_left hUnion).1, hLast⟩

/-- Every row of an answer has one of the requested flavors, so the outer seek
finds them all. -/
theorem rowsByFlavor_over_selection
    (h : ∀ row, row ∈ again ↔ row ∈ (holding rows).selection intersect suffix union) :
    (holding again).rowsByFlavor intersect.keys =
      (holding rows).selection intersect suffix union := by
  apply RowSet.ext
  intro row
  rw [mem_rowsByFlavor, TextKeys.mem_keys_iff, h row]
  constructor
  · intro hBoth
    exact hBoth.1
  · intro hRow
    exact ⟨hRow, (mem_selection.mp hRow).2.1⟩

/-- The plan of a query with texts, and its stages. -/
theorem outcome_plan_ofTexts (engine : Engine) (intersect : TextKeys) (suffix : String)
    (union : TextKeys) :
    (engine.plan (.ofTexts intersect suffix union)).outcome =
      .ok (.ofLookups (engine.rowsByFlavor intersect.keys) (engine.rowsByMaker (.text suffix))
        (engine.rowsByFlavor union.keys)) := by
  have hLookups : engine.lookups (.ofTexts intersect suffix union) = _ :=
    lookups_of_keys intersect.keys_value union.keys_value
  rw [plan_of_lookups_ok hLookups]
  rfl

/-- **A query is idempotent.** Its answer, entered as a table in any order and
with any repetitions, is the answer of the same query on that table, and the
outer stage of its plan as well. -/
theorem requery_gives_same_answer (rows : List Row) (intersect union : TextKeys)
    (suffix : String) :
    ∃ answer : RowSet,
      (do let engine ← ofRows rows
          engine.query (.ofTexts intersect suffix union)).outcome = .ok answer ∧
      ∀ again : List Row, (∀ row, row ∈ again ↔ row ∈ answer) →
        (do let engine ← ofRows again
            engine.query (.ofTexts intersect suffix union)).outcome = .ok answer ∧
        ∃ plan : Plan,
          (do let engine ← ofRows again
              engine.plan (.ofTexts intersect suffix union)).outcome = .ok plan ∧
          plan.outer = answer := by
  refine ⟨(holding rows).selection intersect suffix union, ?_, ?_⟩
  · rw [outcome_ofRows_bind]
    exact outcome_query_ofTexts _ intersect suffix union
  · intro again hAgain
    rw [outcome_ofRows_bind, outcome_ofRows_bind, outcome_query_ofTexts, outcome_plan_ofTexts,
      selection_over_selection hAgain]
    exact ⟨rfl, _, rfl, rowsByFlavor_over_selection hAgain⟩

/-- Two products with two base flavors each, of which the query keeps three rows. -/
def conflicting : List Row :=
  [⟨"Cold Stone Creamery", "Mint", "Misc"⟩, ⟨"Marble Slab Creamery", "Coffee", "Misc"⟩,
    ⟨"Cold Stone Creamery", "Mint", "Vanilla"⟩, ⟨"Marble Slab Creamery", "Coffee", "Vanilla"⟩]

/-- Their answer in another order, so that another `Mint` is the last one. -/
def rearranged : List Row :=
  [⟨"Marble Slab Creamery", "Coffee", "Vanilla"⟩, ⟨"Cold Stone Creamery", "Mint", "Vanilla"⟩,
    ⟨"Marble Slab Creamery", "Coffee", "Vanilla"⟩, ⟨"Cold Stone Creamery", "Mint", "Misc"⟩]

theorem requery_rearranged_answer :
    (do let engine ← ofRows rearranged
        engine.query (.ofTexts (.list ["Mint", "Coffee"]) "Creamery" (.one "Mint"))).outcome =
      .ok (.ofList rearranged) := by
  obtain ⟨answer, hAnswer, hAgain⟩ := requery_gives_same_answer conflicting
    (.list ["Mint", "Coffee"]) (.one "Mint") "Creamery"
  have hEq : answer = .ofList rearranged := by
    rw [outcome_ofRows_bind, outcome_query_ofTexts] at hAnswer
    rw [← Except.ok.inj hAnswer]
    decide
  subst hEq
  exact (hAgain rearranged fun row => RowSet.mem_ofList.symm).1

end FlavorTable.Engine
