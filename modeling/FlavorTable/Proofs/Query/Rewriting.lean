import FlavorTable.Proofs.Lookup.Scan
import FlavorTable.Proofs.Row.Lattice
import FlavorTable.Session

/-!
# Rewriting a query

A query intersects one seek with the union of a scan and another seek.  The
row sets are a distributive lattice, so the first seek may be intersected with
the scan and with the other seek apart, and the results united afterwards.

A seek collects what it finds under each of its keys, so it turns the joining
of two collections into a union.  Together with the laws of the lattice this
splits a query along either of its collections.  None of this depends on where
the indexes of the engine come from, and the keys need not be texts.

## Main results

* `rowsByKeys_join` — a seek for joined collections is the union of two seeks.
* `selected_eq_union`, `selected_join_intersect`, `selected_join_union` — the rewriting of what
  a query selects.
* `query_rewritten_by_lattice` — the laws of the set algebra as sessions run it, and the
  rewriting for runs of a query.
-/

namespace FlavorTable.Engine

variable (engine : Engine) (intersect union first second : KeyCollection) (suffix : Value)

/-! ## Seeks -/

/-- The rows that a seek for a collection of keys finds. -/
def rowsByKeys (flavors : KeyCollection) : RowSet :=
  engine.rowsByFlavor (Key.distinct flavors.keys)

theorem outcome_flavorSeek_collection (flavors : KeyCollection) :
    (engine.flavorSeek flavors.value).outcome = .ok (engine.rowsByKeys flavors) := by
  rw [flavorSeek_of_keys engine flavors.keys_value, rowsByKeys]

/-- A seek finds what is grouped under one of the keys; how often a key is given
does not matter. -/
theorem mem_rowsByKeys {flavors : KeyCollection} {row : Row} :
    row ∈ engine.rowsByKeys flavors ↔
      ∃ key ∈ flavors.keys, row ∈ group engine.indexes.byFlavor
        (fun flavor entry => ⟨entry.1, flavor, entry.2⟩) key := by
  simp only [rowsByKeys, rowsByFlavor, RowSet.mem_ofList, List.mem_flatMap, Key.mem_distinct]

/-- A seek for the keys of two collections finds what two seeks find. -/
theorem rowsByKeys_join :
    engine.rowsByKeys (first.join second) =
      engine.rowsByKeys first ∪ engine.rowsByKeys second := by
  ext row
  rw [RowSet.mem_union, mem_rowsByKeys, mem_rowsByKeys, mem_rowsByKeys]
  simp only [KeyCollection.join, List.mem_append, or_and_right, exists_or]

/-! ## Queries -/

/-- The rows that a query with collections of keys selects. -/
def selected : RowSet :=
  engine.rowsByKeys intersect ∩ (engine.rowsByMaker suffix ∪ engine.rowsByKeys union)

theorem outcome_query_collections :
    (engine.query ⟨intersect.value, suffix, union.value⟩).outcome =
      .ok (engine.selected intersect union suffix) :=
  engine.outcome_query_of_keys intersect.keys_value union.keys_value

/-- The scan and the second seek may each be intersected with the first seek. -/
theorem selected_eq_union :
    engine.selected intersect union suffix =
      (engine.rowsByKeys intersect ∩ engine.rowsByMaker suffix) ∪
        (engine.rowsByKeys intersect ∩ engine.rowsByKeys union) :=
  inf_sup_left _ _ _

/-- A query splits along the flavors that a row must have one of. -/
theorem selected_join_intersect :
    engine.selected (first.join second) union suffix =
      engine.selected first union suffix ∪ engine.selected second union suffix := by
  rw [selected, rowsByKeys_join]
  exact inf_sup_right _ _ _

/-- A query splits along the flavors that a row may have instead. -/
theorem selected_join_union :
    engine.selected intersect (first.join second) suffix =
      engine.selected intersect first suffix ∪ engine.selected intersect second suffix := by
  -- The scan has to be doubled first, since it belongs to both parts.
  have hInner :
      engine.rowsByMaker suffix ∪ engine.rowsByKeys (first.join second) =
        (engine.rowsByMaker suffix ∪ engine.rowsByKeys first) ∪
          (engine.rowsByMaker suffix ∪ engine.rowsByKeys second) := by
    rw [rowsByKeys_join]
    exact sup_sup_distrib_left _ _ _
  rw [selected, hInner]
  exact inf_sup_left _ _ _

/-! ## Runs -/

/-- **The set algebra is a distributive lattice, and queries are rewritten by
it.** On all lists of rows the unions and intersections that a session answers
with have the laws of a distributive lattice, as equations between sets.  On
every engine, whatever the suffix is, a query with collections of keys succeeds,
and its answer is the union of the first seek's intersections with the scan and
with the second seek.  A query for joined collections, on either side, answers
with the union of the answers for each. -/
theorem query_rewritten_by_lattice :
    (∀ a b c : List Row, RowSet.AlgebraLaws a b c) ∧
    (∀ (session : Session) (left right : List Row) (keep : Option String),
      ({ session with engine := some engine }.answer
        (.union (.rows left) (.rows right) keep)).outcome =
          .ok (.rows (RowSet.united left right).rows) ∧
      ({ session with engine := some engine }.answer
        (.inter (.rows left) (.rows right) keep)).outcome =
          .ok (.rows (RowSet.shared left right).rows)) ∧
    ∀ suffix : Value,
      (∀ intersect union : KeyCollection, ∃ outer makerLike flavorUnion : RowSet,
        (engine.flavorSeek intersect.value).outcome = .ok outer ∧
        (engine.makerScan suffix).outcome = .ok makerLike ∧
        (engine.flavorSeek union.value).outcome = .ok flavorUnion ∧
        (engine.query ⟨intersect.value, suffix, union.value⟩).outcome =
          .ok (RowSet.united (RowSet.shared outer.rows makerLike.rows).rows
            (RowSet.shared outer.rows flavorUnion.rows).rows)) ∧
      (∀ first second union : KeyCollection, ∃ left right : RowSet,
        (engine.query ⟨first.value, suffix, union.value⟩).outcome = .ok left ∧
        (engine.query ⟨second.value, suffix, union.value⟩).outcome = .ok right ∧
        (engine.query ⟨(first.join second).value, suffix, union.value⟩).outcome =
          .ok (RowSet.united left.rows right.rows)) ∧
      ∀ intersect first second : KeyCollection, ∃ left right : RowSet,
        (engine.query ⟨intersect.value, suffix, first.value⟩).outcome = .ok left ∧
        (engine.query ⟨intersect.value, suffix, second.value⟩).outcome = .ok right ∧
        (engine.query ⟨intersect.value, suffix, (first.join second).value⟩).outcome =
          .ok (RowSet.united left.rows right.rows) := by
  refine ⟨RowSet.algebraLaws, fun _ _ _ _ => ⟨rfl, rfl⟩, fun suffix => ⟨?_, ?_, ?_⟩⟩
  · intro intersect union
    refine ⟨engine.rowsByKeys intersect, engine.rowsByMaker suffix, engine.rowsByKeys union,
      engine.outcome_flavorSeek_collection intersect, rfl,
      engine.outcome_flavorSeek_collection union, ?_⟩
    rw [outcome_query_collections, selected_eq_union, RowSet.shared_rows, RowSet.shared_rows,
      RowSet.united_rows]
  · intro first second union
    refine ⟨_, _, engine.outcome_query_collections first union suffix,
      engine.outcome_query_collections second union suffix, ?_⟩
    rw [outcome_query_collections, selected_join_intersect, RowSet.united_rows]
  · intro intersect first second
    refine ⟨_, _, engine.outcome_query_collections intersect first suffix,
      engine.outcome_query_collections intersect second suffix, ?_⟩
    rw [outcome_query_collections, selected_join_union, RowSet.united_rows]

end FlavorTable.Engine
