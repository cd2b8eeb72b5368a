import FlavorTable.Engine

/-!
# Queries

The query asks for the rows of certain flavors which, besides, are sold by a
maker whose name ends in a certain word or have a flavor from a second list:

> `(maker ends in suffix OR flavor in union) AND flavor in intersect`

It is answered by two seeks, one scan and set algebra:

> `result = outer ∩ (makerLike ∪ flavorUnion)`

`Engine.query` gives the result alone. `Engine.plan` keeps every stage and
reports their sizes. Both evaluate the stages in the same order, so both fail
at the same argument and leave the same notes before it.

## Main results

* `flavorSeek_of_keys` — what a seek finds and reports.
* `outcome_query_of_keys` — the answer of a query whose arguments stand for
  keys.
-/

namespace FlavorTable

structure Query where
  /-- The flavors that a row must have one of. -/
  intersect : Value
  /-- The word that a maker's name may end in. -/
  suffix : Value
  /-- The flavors that a row may have instead. -/
  union : Value

structure Plan where
  outer : RowSet
  makerLike : RowSet
  flavorUnion : RowSet
  inner : RowSet
  result : RowSet
  deriving DecidableEq

def Plan.note (plan : Plan) : Note :=
  .planned plan.outer.size plan.makerLike.size plan.flavorUnion.size plan.inner.size
    plan.result.size

namespace Engine

/-- The rows that a query asks for. -/
def query (engine : Engine) (q : Query) : Run RowSet := do
  let outer ← engine.flavorSeek q.intersect
  let makerLike ← engine.makerScan q.suffix
  let flavorUnion ← engine.flavorSeek q.union
  return outer ∩ (makerLike ∪ flavorUnion)

/-- The query with every stage kept. -/
def plan (engine : Engine) (q : Query) : Run Plan := do
  let outer ← engine.flavorSeek q.intersect
  let makerLike ← engine.makerScan q.suffix
  let flavorUnion ← engine.flavorSeek q.union
  let inner := makerLike ∪ flavorUnion
  let plan : Plan := ⟨outer, makerLike, flavorUnion, inner, outer ∩ inner⟩
  Run.note plan.note
  return plan

/-- A seek succeeds when its argument stands for keys. -/
theorem flavorSeek_of_keys (engine : Engine) {flavors : Value} {keys : List Key}
    (h : flavors.keys = .ok keys) :
    engine.flavorSeek flavors =
      ⟨.ok (engine.rowsByFlavor keys),
        [.flavorSeek keys.length (engine.rowsByFlavor keys).size]⟩ := by
  simp [flavorSeek, h, Run.note]

/-- The query on arguments that stand for keys. -/
theorem outcome_query_of_keys (engine : Engine) {q : Query} {outer union : List Key}
    (hOuter : q.intersect.keys = .ok outer) (hUnion : q.union.keys = .ok union) :
    (engine.query q).outcome =
      .ok (engine.rowsByFlavor outer ∩
        (RowSet.ofList (engine.scan q.suffix).kept ∪ engine.rowsByFlavor union)) := by
  simp [query, flavorSeek_of_keys engine hOuter, flavorSeek_of_keys engine hUnion, makerScan,
    Run.note]

end Engine

end FlavorTable
