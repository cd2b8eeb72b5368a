import FlavorTable.Proofs.Lookup.Counts

/-!
# Scans for different suffixes

A scan asks of each maker whether a word is the last one of its name.  A name
has one last word, so no two words get a positive answer from the same maker:
scans for different words have no row in common.  And for each maker there is a
word that matches, the last word itself.

Hence the scans for all words divide the primary index.  Each product is found
by the scan for one word and by no other, as one row, the last one of the
product.

## Main results

* `endsInWord_iff` — which word a maker's name ends in.
* `existsUnique_scan_of_product` — a product is found for exactly one suffix.
* `scans_divide_products` — the meaning of all scans on a table.
-/

namespace FlavorTable

theorem endsInWord_iff {maker suffix : String} :
    endsInWord maker suffix = true ↔ Text.lastWord maker = suffix := by
  rw [endsInWord, decide_eq_true_eq]

namespace Engine

variable {rows : List Row} {suffix other : String}

/-- A scan for a text finds the last rows of their products that match it. -/
theorem mem_rowsByMaker_text {row : Row} :
    row ∈ (holding rows).rowsByMaker (.text suffix) ↔
      row ∈ rows ∧ endsInWord row.maker suffix = true ∧ row.IsLast rows := by
  rw [mem_rowsByMaker]
  constructor
  · intro h
    exact ⟨h.2.mem, h⟩
  · intro h
    exact h.2

/-- A scan finds one row of a product. -/
theorem eq_of_mem_rowsByMaker {a b : Row} (ha : a ∈ (holding rows).rowsByMaker (.text suffix))
    (hb : b ∈ (holding rows).rowsByMaker (.text other)) (hProduct : a.product = b.product) :
    a = b :=
  (mem_rowsByMaker.mp ha).2.unique (mem_rowsByMaker.mp hb).2 hProduct

/-- Scans that find a row of one product are scans for the same suffix. -/
theorem suffix_eq_of_mem_rowsByMaker {a b : Row}
    (ha : a ∈ (holding rows).rowsByMaker (.text suffix))
    (hb : b ∈ (holding rows).rowsByMaker (.text other)) (hProduct : a.product = b.product) :
    suffix = other := by
  have hEq : a = b := eq_of_mem_rowsByMaker ha hb hProduct
  subst hEq
  have hSuffix := endsInWord_iff.mp (mem_rowsByMaker_text.mp ha).2.1
  have hOther := endsInWord_iff.mp (mem_rowsByMaker_text.mp hb).2.1
  exact hSuffix.symm.trans hOther

/-- A product of the primary index is found by the scan for the last word of its maker, and
by no other. -/
theorem existsUnique_scan_of_product {product : String × String}
    (h : product ∈ (Indexes.ofRows rows).primary.keys) :
    ∃! suffix : String, ∃ row ∈ (holding rows).rowsByMaker (.text suffix),
      row.product = product := by
  obtain ⟨row, hRow, rfl⟩ := ((Indexes.keyed_ofRows rows).primary product).mp h
  obtain ⟨last, hLast, hProduct⟩ := Row.exists_isLast hRow
  have hFound : last ∈ (holding rows).rowsByMaker (.text (Text.lastWord last.maker)) :=
    mem_rowsByMaker_text.mpr ⟨hLast.mem, endsInWord_iff.mpr rfl, hLast⟩
  refine ⟨Text.lastWord last.maker, ⟨last, hFound, hProduct⟩, ?_⟩
  rintro suffix ⟨found, hOther, hFoundProduct⟩
  exact suffix_eq_of_mem_rowsByMaker hOther hFound (hFoundProduct.trans hProduct.symm)

/-- **Scans divide the products among the suffixes.** On every table a scan
succeeds for every text.  It finds the rows whose maker ends in the text and
that are the last ones of their products, and notes how many different makers
the table has and how many rows it found.  So a scan never finds two rows of a
product, scans for different texts have no row in common, and each product of
the primary index is found for exactly one text. -/
theorem scans_divide_products (rows : List Row) :
    ∃ engine, (ofRows rows).outcome = .ok engine ∧
      ∃ found : String → RowSet,
        (∀ suffix, engine.makerScan (.text suffix) =
          ⟨.ok (found suffix), [.makerScan (.text suffix) (rows.map Row.maker).toFinset.card
            (found suffix).size]⟩) ∧
        (∀ suffix row, row ∈ found suffix ↔
          row ∈ rows ∧ endsInWord row.maker suffix = true ∧ row.IsLast rows) ∧
        (∀ suffix, ∀ a ∈ found suffix, ∀ b ∈ found suffix, a.product = b.product → a = b) ∧
        (∀ suffix other, suffix ≠ other → ∀ row ∈ found suffix, row ∉ found other) ∧
        ∀ product ∈ engine.indexes.primary.keys,
          ∃! suffix, ∃ row ∈ found suffix, row.product = product := by
  refine ⟨holding rows, outcome_ofRows rows,
    fun suffix => (holding rows).rowsByMaker (.text suffix), ?_, ?_, ?_, ?_, ?_⟩
  · intro suffix
    rw [makerScan_eq, size_tested]
  · intro suffix row
    exact mem_rowsByMaker_text
  · intro suffix a ha b hb hProduct
    exact eq_of_mem_rowsByMaker ha hb hProduct
  · intro suffix other hNe row hRow hOther
    exact hNe (suffix_eq_of_mem_rowsByMaker hRow hOther rfl)
  · intro product hProduct
    exact existsUnique_scan_of_product hProduct

end Engine

end FlavorTable
