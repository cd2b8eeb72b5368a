import FlavorTable.Proofs.Lookup.Partition
import FlavorTable.Proofs.Query.Answer
import FlavorTable.Proofs.Text.LastWord

/-!
# Queries with an empty suffix

An empty suffix is no word, so one expects no maker to end in it.  A maker whose
name has characters besides spaces does not.  But a name may be empty or hold
nothing but spaces: no check of the rows and no reader of tables refuses it.
Nothing is left of such a name when its padding is dropped, its last word is
empty, and a scan for the empty suffix finds it.

So the expectation is right for the tables in which every maker has a word, and
for no others.

## Main results

* `mem_rowsByMaker_empty` — what a scan for the empty suffix finds.
* `empty_suffix_finds_wordless` — scans and queries with an empty suffix.
* `empty_suffix_finds_nameless` — a table that can be read and has such a maker.
-/

namespace FlavorTable

/-- The maker's name holds nothing but plain spaces. -/
def Wordless (maker : String) : Prop := ∀ c ∈ maker.toList, c = ' '

-- The instance is named because the characters are also finitely many.
instance (maker : String) : Decidable (Wordless maker) :=
  List.decidableBAll (fun c => c = ' ') maker.toList

theorem endsInWord_empty_iff {maker : String} : endsInWord maker "" = true ↔ Wordless maker :=
  endsInWord_iff.trans Text.lastWord_eq_empty_iff

namespace Engine

variable {rows : List Row} {row : Row} {intersect union : TextKeys}

/-- A scan for the empty suffix finds the last rows of the products without a maker. -/
theorem mem_rowsByMaker_empty :
    row ∈ (holding rows).rowsByMaker (.text "") ↔
      row ∈ rows ∧ Wordless row.maker ∧ row.IsLast rows := by
  rw [mem_rowsByMaker_text, endsInWord_empty_iff]

theorem mem_selection_empty :
    row ∈ (holding rows).selection intersect "" union ↔
      row ∈ rows ∧ row.flavor ∈ intersect ∧
        (row.flavor ∈ union ∨ Wordless row.maker ∧ row.IsLast rows) := by
  rw [mem_selection, endsInWord_empty_iff]

/-- A table with a maker without words has such a maker in the last row of a product. -/
theorem exists_wordless_isLast (h : ∃ row ∈ rows, Wordless row.maker) :
    ∃ row ∈ rows, Wordless row.maker ∧ row.IsLast rows := by
  obtain ⟨row, hRow, hMaker⟩ := h
  obtain ⟨last, hLast, hProduct⟩ := Row.exists_isLast hRow
  have hSame : last.maker = row.maker := congrArg Prod.fst hProduct
  exact ⟨last, hLast.mem, hSame ▸ hMaker, hLast⟩

theorem rowsByMaker_empty_eq_empty_iff :
    (holding rows).rowsByMaker (.text "") = .empty ↔ ∀ row ∈ rows, ¬Wordless row.maker := by
  constructor
  · intro hEmpty row hRow hMaker
    obtain ⟨last, hFound⟩ := exists_wordless_isLast ⟨row, hRow, hMaker⟩
    rw [← mem_rowsByMaker_empty, hEmpty] at hFound
    exact RowSet.not_mem_empty last hFound
  · intro hMakers
    apply RowSet.ext
    intro row
    rw [mem_rowsByMaker_empty]
    constructor
    · rintro ⟨hRow, hMaker, -⟩
      exact absurd hMaker (hMakers row hRow)
    · intro hRow
      exact absurd hRow (RowSet.not_mem_empty row)

/-- Queries with an empty suffix are answered by the flavors alone when every maker has a word. -/
theorem selection_empty_iff :
    (∀ intersect union row, row ∈ (holding rows).selection intersect "" union ↔
        row ∈ rows ∧ row.flavor ∈ intersect ∧ row.flavor ∈ union) ↔
      ∀ row ∈ rows, ¬Wordless row.maker := by
  constructor
  · intro hFlavors row hRow hMaker
    obtain ⟨last, hLast, hFound⟩ := exists_wordless_isLast ⟨row, hRow, hMaker⟩
    -- Its flavor alone is asked for, and no flavor is listed for the union.
    have hOne : last.flavor ∈ TextKeys.one last.flavor := List.mem_singleton_self _
    have hSelected : last ∈ (holding rows).selection (.one last.flavor) "" (.list []) :=
      mem_selection_empty.mpr ⟨hLast, hOne, .inr hFound⟩
    exact List.not_mem_nil ((hFlavors _ _ _).mp hSelected).2.2
  · intro hMakers intersect union row
    rw [mem_selection_empty]
    constructor
    · rintro ⟨hRow, hIntersect, hUnion | hMaker⟩
      · exact ⟨hRow, hIntersect, hUnion⟩
      · exact absurd hMaker.1 (hMakers row hRow)
    · rintro ⟨hRow, hIntersect, hUnion⟩
      exact ⟨hRow, hIntersect, .inl hUnion⟩

/-- **What an empty suffix selects.** On every table a scan for the empty suffix
succeeds and finds the last rows of the products whose maker's name holds
nothing but spaces.  A query with an empty suffix succeeds and finds the rows of
the requested flavors that have a flavor of the union or are found by that scan.
When every maker has a word, and only then, the scan finds nothing; and only
then the answer to every query holds the rows whose flavor is in both lists. -/
theorem empty_suffix_finds_wordless (rows : List Row) :
    ∃ engine, (ofRows rows).outcome = .ok engine ∧
      ∃ (found : RowSet) (answer : TextKeys → TextKeys → RowSet),
        (engine.makerScan (.text "")).outcome = .ok found ∧
        (∀ intersect union,
          (engine.query (.ofTexts intersect "" union)).outcome = .ok (answer intersect union)) ∧
        (∀ row, row ∈ found ↔ row ∈ rows ∧ Wordless row.maker ∧ row.IsLast rows) ∧
        (∀ intersect union row, row ∈ answer intersect union ↔
          row ∈ rows ∧ row.flavor ∈ intersect ∧ (row.flavor ∈ union ∨ row ∈ found)) ∧
        (found = .empty ↔ ∀ row ∈ rows, ¬Wordless row.maker) ∧
        ((∀ intersect union row, row ∈ answer intersect union ↔
            row ∈ rows ∧ row.flavor ∈ intersect ∧ row.flavor ∈ union) ↔
          ∀ row ∈ rows, ¬Wordless row.maker) := by
  refine ⟨holding rows, outcome_ofRows rows, (holding rows).rowsByMaker (.text ""),
    fun intersect union => (holding rows).selection intersect "" union, ?_, ?_,
    fun _ => mem_rowsByMaker_empty, ?_, rowsByMaker_empty_eq_empty_iff, selection_empty_iff⟩
  · rw [makerScan_eq]
  · intro intersect union
    exact outcome_query_ofTexts _ intersect "" union
  · intro intersect union row
    rw [mem_selection_empty, mem_rowsByMaker_empty]
    constructor
    · rintro ⟨hRow, hIntersect, hUnion | hMaker⟩
      · exact ⟨hRow, hIntersect, .inl hUnion⟩
      · exact ⟨hRow, hIntersect, .inr ⟨hRow, hMaker⟩⟩
    · rintro ⟨hRow, hIntersect, hUnion | hFound⟩
      · exact ⟨hRow, hIntersect, .inl hUnion⟩
      · exact ⟨hRow, hIntersect, .inr hFound.2⟩

/-- A table that is read has a row without a maker.  The scan for the empty suffix finds the row,
and a query with an empty suffix answers with it although its flavor is not in the union. -/
theorem empty_suffix_finds_nameless :
    ∃ engine found answer, (ofText "Maker,Flavor,BaseFlavor\n,Mint,Misc").outcome = .ok engine ∧
      (engine.makerScan (.text "")).outcome = .ok found ∧
      (engine.query (.ofTexts (.one "Mint") "" (.list []))).outcome = .ok answer ∧
      found.rows = [⟨"", "Mint", "Misc"⟩] ∧ answer.rows = [⟨"", "Mint", "Misc"⟩] :=
  ⟨_, _, _, rfl, rfl, rfl, rfl, rfl⟩

end Engine

end FlavorTable
