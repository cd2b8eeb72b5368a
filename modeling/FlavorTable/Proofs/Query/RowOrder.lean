import FlavorTable.Proofs.Query.Answer

/-!
# When the order of the rows matters

The grouped indexes keep every row, so what a seek finds depends only on which
rows a table has.  The primary index keeps the last row of each product, and
which one that is depends on the order, unless all rows of the product are
equal.

So in a consistent table neither order nor repetitions can be noticed, by any
lookup or query.  In any other table they can: there are two rows of one
product with different base flavors, one of them is not the last of the
product, and moving it to the end changes the scan for the last word of its
maker.

## Main results

* `outcome_flavorSeek`, `outcome_baseFlavorSeek`, `outcome_query` — outcomes in
  terms of the sets that the lookups find.
* `sameAnswers_of_consistent` — in a consistent table only the set of rows
  counts.
* `exists_perm_makerScan_ne` — in any other table the order counts.
* `order_matters_iff_inconsistent` — both together.
-/

namespace FlavorTable

/-! ## Tables with the same rows -/

namespace Row

variable {a b rows : List Row}

theorem Consistent.of_mem_iff (h : Consistent b) (hRows : ∀ row, row ∈ a ↔ row ∈ b) :
    Consistent a := by
  intro first hFirst second hSecond
  exact h first ((hRows first).mp hFirst) second ((hRows second).mp hSecond)

theorem Consistent.isLast_iff_mem (h : Consistent rows) {row : Row} :
    IsLast rows row ↔ row ∈ rows :=
  ⟨IsLast.mem, h.isLast⟩

/-- A row moved to the end is the last of its product. -/
theorem isLast_erase_append (rows : List Row) (row : Row) :
    IsLast (rows.erase row ++ [row]) row :=
  ⟨rows.erase row, [], rfl, fun _ hLater => absurd hLater List.not_mem_nil⟩

theorem erase_append_perm {row : Row} (h : row ∈ rows) : (rows.erase row ++ [row]).Perm rows :=
  (List.perm_append_singleton row (rows.erase row)).trans (List.perm_cons_erase h).symm

theorem exists_conflict_of_not_consistent (h : ¬Consistent rows) :
    ∃ a ∈ rows, ∃ b ∈ rows, a.product = b.product ∧ a.baseFlavor ≠ b.baseFlavor := by
  simpa only [Consistent, Classical.not_forall, exists_prop] using h

end Row

namespace Engine

/-! ## Outcomes of lookups and queries -/

theorem outcome_flavorSeek (engine : Engine) (flavors : Value) :
    (engine.flavorSeek flavors).outcome = (do
      let keys ← (Run.ofExcept .misuse flavors.keys).outcome
      return engine.rowsByFlavor keys) := by
  unfold flavorSeek
  cases flavors.keys <;> rfl

theorem outcome_baseFlavorSeek (engine : Engine) (baseFlavors : Value) :
    (engine.baseFlavorSeek baseFlavors).outcome = (do
      let keys ← (Run.ofExcept .misuse baseFlavors.keys).outcome
      return engine.rowsByBaseFlavor keys) := by
  unfold baseFlavorSeek
  cases baseFlavors.keys <;> rfl

theorem outcome_query (engine : Engine) (q : Query) :
    (engine.query q).outcome = (do
      let outer ← (Run.ofExcept .misuse q.intersect.keys).outcome
      let union ← (Run.ofExcept .misuse q.union.keys).outcome
      return engine.rowsByFlavor outer ∩
        (engine.rowsByMaker q.suffix ∪ engine.rowsByFlavor union)) := by
  unfold query flavorSeek
  cases q.intersect.keys with
  | error misuse => rfl
  | ok outer => cases q.union.keys <;> rfl

/-! ## Answers of a table -/

/-- What an engine built over the rows answers. -/
def answerOver (rows : List Row) (ask : Engine → Run RowSet) : Except Failure RowSet :=
  (do let engine ← ofRows rows
      ask engine).outcome

theorem answerOver_eq (rows : List Row) (ask : Engine → Run RowSet) :
    answerOver rows ask = (ask (holding rows)).outcome :=
  outcome_ofRows_bind rows ask

/-- Engines over the two tables give the same answer to every lookup and every
query, whatever its arguments are. -/
structure SameAnswers (a b : List Row) : Prop where
  flavorSeek : ∀ flavors : Value,
    answerOver a (fun engine => engine.flavorSeek flavors) =
      answerOver b fun engine => engine.flavorSeek flavors
  makerScan : ∀ suffix : Value,
    answerOver a (fun engine => engine.makerScan suffix) =
      answerOver b fun engine => engine.makerScan suffix
  baseFlavorSeek : ∀ baseFlavors : Value,
    answerOver a (fun engine => engine.baseFlavorSeek baseFlavors) =
      answerOver b fun engine => engine.baseFlavorSeek baseFlavors
  query : ∀ q : Query,
    answerOver a (fun engine => engine.query q) = answerOver b fun engine => engine.query q

variable {a b rows : List Row}

theorem rowsByFlavor_congr (h : ∀ row, row ∈ a ↔ row ∈ b) (keys : List Key) :
    (holding a).rowsByFlavor keys = (holding b).rowsByFlavor keys := by
  apply RowSet.ext
  intro row
  rw [mem_rowsByFlavor, mem_rowsByFlavor, h row]

theorem rowsByBaseFlavor_congr (h : ∀ row, row ∈ a ↔ row ∈ b) (keys : List Key) :
    (holding a).rowsByBaseFlavor keys = (holding b).rowsByBaseFlavor keys := by
  apply RowSet.ext
  intro row
  rw [mem_rowsByBaseFlavor, mem_rowsByBaseFlavor, h row]

/-- A scan, unlike a seek, needs the tables to be consistent. -/
theorem rowsByMaker_congr (hConsistent : Row.Consistent b) (h : ∀ row, row ∈ a ↔ row ∈ b)
    (suffix : Value) : (holding a).rowsByMaker suffix = (holding b).rowsByMaker suffix := by
  apply RowSet.ext
  intro row
  rw [mem_rowsByMaker, mem_rowsByMaker, (hConsistent.of_mem_iff h).isLast_iff_mem,
    hConsistent.isLast_iff_mem, h row]

/-- Of a consistent table only the set of its rows counts. -/
theorem sameAnswers_of_consistent (hConsistent : Row.Consistent b)
    (h : ∀ row, row ∈ a ↔ row ∈ b) : SameAnswers a b := by
  have hFlavor := funext (rowsByFlavor_congr h)
  have hBaseFlavor := funext (rowsByBaseFlavor_congr h)
  have hMaker := rowsByMaker_congr hConsistent h
  refine
    { flavorSeek := ?_
      makerScan := ?_
      baseFlavorSeek := ?_
      query := ?_ }
  · intro flavors
    rw [answerOver_eq, answerOver_eq, outcome_flavorSeek, outcome_flavorSeek, hFlavor]
  · intro suffix
    rw [answerOver_eq, answerOver_eq, makerScan_eq, makerScan_eq, hMaker]
  · intro baseFlavors
    rw [answerOver_eq, answerOver_eq, outcome_baseFlavorSeek, outcome_baseFlavorSeek, hBaseFlavor]
  · intro q
    rw [answerOver_eq, answerOver_eq, outcome_query, outcome_query, hFlavor, hMaker]

/-! ## Tables in which the order counts -/

theorem makerMatches_lastWord (maker : String) :
    makerMatches (.text (Text.lastWord maker)) maker = true := by
  simp [makerMatches, endsInWord]

/-- A row that is not the last of its product can be made so, and is then found
by a scan that did not find it before. -/
theorem rowsByMaker_erase_append_ne {row : Row} (hLast : ¬row.IsLast rows) :
    (holding (rows.erase row ++ [row])).rowsByMaker (.text (Text.lastWord row.maker)) ≠
      (holding rows).rowsByMaker (.text (Text.lastWord row.maker)) := by
  intro hEq
  have hFound : row ∈ (holding (rows.erase row ++ [row])).rowsByMaker
      (.text (Text.lastWord row.maker)) :=
    mem_rowsByMaker.mpr ⟨makerMatches_lastWord row.maker, Row.isLast_erase_append rows row⟩
  rw [hEq] at hFound
  exact hLast (mem_rowsByMaker.mp hFound).2

/-- In a table that is not consistent some row is not the last of its product. -/
theorem exists_mem_not_isLast (h : ¬Row.Consistent rows) : ∃ row ∈ rows, ¬row.IsLast rows := by
  obtain ⟨first, hFirst, second, hSecond, hProduct, hBase⟩ :=
    Row.exists_conflict_of_not_consistent h
  by_cases hLast : first.IsLast rows
  · refine ⟨second, hSecond, fun hOther => hBase ?_⟩
    rw [hLast.unique hOther hProduct]
  · exact ⟨first, hFirst, hLast⟩

/-- A table that is not consistent can be rearranged so that some scan finds
other rows. -/
theorem exists_perm_makerScan_ne (h : ¬Row.Consistent rows) :
    ∃ again, again.Perm rows ∧ ∃ (suffix : String) (found before : RowSet),
      answerOver again (fun engine => engine.makerScan (.text suffix)) = .ok found ∧
      answerOver rows (fun engine => engine.makerScan (.text suffix)) = .ok before ∧
      found ≠ before := by
  obtain ⟨row, hMem, hLast⟩ := exists_mem_not_isLast h
  exact ⟨_, Row.erase_append_perm hMem, Text.lastWord row.maker, _, _, rfl, rfl,
    rowsByMaker_erase_append_ne hLast⟩

/-- **When the order of the rows matters.** All arrangements of a table answer
alike exactly when the table is consistent.  If it is, every table with the
same rows answers alike, whatever the repetitions; if it is not, some
arrangement changes the answer of a scan. -/
theorem order_matters_iff_inconsistent (rows : List Row) :
    ((∀ again, again.Perm rows → SameAnswers again rows) ↔ Row.Consistent rows) ∧
    (Row.Consistent rows → ∀ again : List Row, (∀ row, row ∈ again ↔ row ∈ rows) →
      SameAnswers again rows) ∧
    (¬Row.Consistent rows → ∃ again, again.Perm rows ∧
      ∃ (suffix : String) (found before : RowSet),
        answerOver again (fun engine => engine.makerScan (.text suffix)) = .ok found ∧
        answerOver rows (fun engine => engine.makerScan (.text suffix)) = .ok before ∧
        found ≠ before) := by
  refine ⟨⟨?_, ?_⟩, ?_, exists_perm_makerScan_ne⟩
  · intro hSame
    refine Classical.byContradiction fun hConflict => ?_
    obtain ⟨again, hPerm, suffix, found, before, hFound, hBefore, hNe⟩ :=
      exists_perm_makerScan_ne hConflict
    have hScan := (hSame again hPerm).makerScan (.text suffix)
    rw [hFound, hBefore] at hScan
    exact hNe (Except.ok.inj hScan)
  · intro hConsistent again hPerm
    exact sameAnswers_of_consistent hConsistent fun row => hPerm.mem_iff
  · intro hConsistent again hSame
    exact sameAnswers_of_consistent hConsistent hSame

end Engine

end FlavorTable
