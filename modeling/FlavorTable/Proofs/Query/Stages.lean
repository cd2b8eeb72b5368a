import FlavorTable.Proofs.Lookup.Scan
import FlavorTable.Row.Sample

/-!
# The two ways to run a query

`Engine.query` and `Engine.plan` begin with the same three lookups, made in
the same order.  `Engine.lookups` is that common part: it fails with the first
argument that does not stand for keys and keeps the notes of the lookups made
before it.  What follows the lookups is set algebra, which cannot fail, and in
the case of the plan one note on the sizes.

## Main results

* `query_eq_lookups`, `plan_eq_lookups` — both ways are the lookups and a rest.
* `lookups_cases` — the three ways in which the lookups can end.
* `plan_agrees_with_query` — the two ways agree in answers, failures and notes.
-/

namespace FlavorTable

/-- The plan whose last two stages are computed from the first three. -/
def Plan.ofLookups (outer makerLike flavorUnion : RowSet) : Plan :=
  ⟨outer, makerLike, flavorUnion, makerLike ∪ flavorUnion, outer ∩ (makerLike ∪ flavorUnion)⟩

/-- A note on a seek among the flavors or on a scan. -/
def Note.IsLookup : Note → Prop
  | .flavorSeek .. | .makerScan .. => True
  | _ => False

theorem Note.IsLookup.level_ne_warning {note : Note} (h : note.IsLookup) :
    note.level ≠ .warning := by
  cases note with
  | baseFlavorSeek => exact h.elim
  | _ => simp [Note.level]

namespace Engine

/-- The lookups that a query begins with. -/
def lookups (engine : Engine) (q : Query) : Run Plan := do
  let outer ← engine.flavorSeek q.intersect
  let makerLike ← engine.makerScan q.suffix
  let flavorUnion ← engine.flavorSeek q.union
  return .ofLookups outer makerLike flavorUnion

variable (engine : Engine) (q : Query)

theorem query_eq_lookups :
    engine.query q = do let plan ← engine.lookups q; return plan.result := by
  simp only [query, lookups, Run.bind_assoc, Run.pure_bind]
  rfl

theorem plan_eq_lookups :
    engine.plan q = do
      let plan ← engine.lookups q
      Run.note plan.note
      return plan := by
  simp only [plan, lookups, Run.bind_assoc, Run.pure_bind]
  rfl

/-! ## How the lookups end -/

/-- The note of a seek for keys. -/
def seekNote (keys : List Key) : Note := .flavorSeek keys.length (engine.rowsByFlavor keys).size

/-- The note of a scan for a suffix. -/
def scanNote (suffix : Value) : Note :=
  .makerScan suffix (engine.scan suffix).tested.size (engine.rowsByMaker suffix).size

variable {engine q} {misuse : Value.Misuse} {outer union : List Key} {answer : RowSet}
  {failure : Failure} {notes : List Note} {stages : Plan} {note : Note}

theorem lookups_of_intersect_misuse (h : q.intersect.keys = .error misuse) :
    engine.lookups q = ⟨.error (.misuse misuse), []⟩ := by
  rw [lookups, flavorSeek_of_misuse engine h, Run.bind_error]

theorem lookups_of_union_misuse (hOuter : q.intersect.keys = .ok outer)
    (h : q.union.keys = .error misuse) :
    engine.lookups q =
      ⟨.error (.misuse misuse), [engine.seekNote outer, engine.scanNote q.suffix]⟩ := by
  rw [lookups, flavorSeek_of_keys engine hOuter, makerScan_eq, flavorSeek_of_misuse engine h]
  rfl

theorem lookups_of_keys (hOuter : q.intersect.keys = .ok outer)
    (hUnion : q.union.keys = .ok union) :
    engine.lookups q =
      ⟨.ok (.ofLookups (engine.rowsByFlavor outer) (engine.rowsByMaker q.suffix)
          (engine.rowsByFlavor union)),
        [engine.seekNote outer, engine.scanNote q.suffix, engine.seekNote union]⟩ := by
  rw [lookups, flavorSeek_of_keys engine hOuter, makerScan_eq, flavorSeek_of_keys engine hUnion]
  rfl

/-- The failure and the notes that an unfit argument leaves: nothing was looked
up before the first one, and a seek and a scan were made before the other. -/
def FailsBefore (engine : Engine) (q : Query) (failure : Failure) (notes : List Note) : Prop :=
  (∃ misuse, q.intersect.keys = .error misuse ∧ failure = .misuse misuse ∧ notes = []) ∨
  ∃ outer misuse, q.intersect.keys = .ok outer ∧ q.union.keys = .error misuse ∧
    failure = .misuse misuse ∧ notes = [engine.seekNote outer, engine.scanNote q.suffix]

/-- The lookups end with an unfit argument, or with all three stages. -/
theorem lookups_cases (engine : Engine) (q : Query) :
    (∃ failure notes, engine.lookups q = ⟨.error failure, notes⟩ ∧
      engine.FailsBefore q failure notes) ∨
    ∃ outer union, engine.lookups q =
      ⟨.ok (.ofLookups (engine.rowsByFlavor outer) (engine.rowsByMaker q.suffix)
          (engine.rowsByFlavor union)),
        [engine.seekNote outer, engine.scanNote q.suffix, engine.seekNote union]⟩ := by
  cases hOuter : q.intersect.keys with
  | error misuse =>
      left
      refine ⟨_, _, lookups_of_intersect_misuse hOuter, .inl ?_⟩
      exact ⟨misuse, hOuter, rfl, rfl⟩
  | ok outer =>
      cases hUnion : q.union.keys with
      | error misuse =>
          left
          refine ⟨_, _, lookups_of_union_misuse hOuter hUnion, .inr ?_⟩
          exact ⟨outer, misuse, hOuter, hUnion, rfl, rfl⟩
      | ok union =>
          right
          exact ⟨outer, union, lookups_of_keys hOuter hUnion⟩

/-! ## Agreement -/

theorem query_of_lookups_error (h : engine.lookups q = ⟨.error failure, notes⟩) :
    engine.query q = ⟨.error failure, notes⟩ := by
  rw [query_eq_lookups, h, Run.bind_error]

theorem plan_of_lookups_error (h : engine.lookups q = ⟨.error failure, notes⟩) :
    engine.plan q = ⟨.error failure, notes⟩ := by
  rw [plan_eq_lookups, h, Run.bind_error]

theorem query_of_lookups_ok (h : engine.lookups q = ⟨.ok stages, notes⟩) :
    engine.query q = ⟨.ok stages.result, notes⟩ := by
  rw [query_eq_lookups, h, Run.bind_ok]
  simp

theorem plan_of_lookups_ok (h : engine.lookups q = ⟨.ok stages, notes⟩) :
    engine.plan q = ⟨.ok stages, notes ++ [stages.note]⟩ := by
  rw [plan_eq_lookups, h, Run.bind_ok]
  rfl

/-- The lookups leave only notes on seeks and scans, also when they fail. -/
theorem isLookup_of_mem_lookups (h : note ∈ (engine.lookups q).trace) : note.IsLookup := by
  rcases engine.lookups_cases q with ⟨failure, notes, hRun, hFails⟩ | ⟨outer, union, hRun⟩
  · rw [hRun] at h
    rcases hFails with ⟨-, -, -, rfl⟩ | ⟨outer, -, -, -, -, rfl⟩
    · cases h
    · simp only [List.mem_cons, List.not_mem_nil, or_false] at h
      rcases h with rfl | rfl <;> trivial
  · rw [hRun] at h
    simp only [List.mem_cons, List.not_mem_nil, or_false] at h
    rcases h with rfl | rfl | rfl <;> trivial

theorem trace_query (engine : Engine) (q : Query) :
    (engine.query q).trace = (engine.lookups q).trace := by
  rcases engine.lookups_cases q with ⟨failure, notes, hRun, -⟩ | ⟨outer, union, hRun⟩
  · rw [query_of_lookups_error hRun, hRun]
  · rw [query_of_lookups_ok hRun, hRun]

theorem mem_trace_plan (h : note ∈ (engine.plan q).trace) :
    note ∈ (engine.lookups q).trace ∨ ∃ stages : Plan, note = stages.note := by
  rcases engine.lookups_cases q with ⟨failure, notes, hRun, -⟩ | ⟨outer, union, hRun⟩
  · rw [plan_of_lookups_error hRun] at h
    rw [hRun]
    exact .inl h
  · rw [plan_of_lookups_ok hRun] at h
    rw [hRun]
    rcases List.mem_append.mp h with hLookup | hPlan
    · exact .inl hLookup
    · exact .inr ⟨_, List.mem_singleton.mp hPlan⟩

theorem level_ne_warning_of_mem_trace
    (h : note ∈ (engine.query q).trace ++ (engine.plan q).trace) : note.level ≠ .warning := by
  rcases List.mem_append.mp h with hQuery | hPlan
  · rw [trace_query] at hQuery
    exact (isLookup_of_mem_lookups hQuery).level_ne_warning
  · rcases mem_trace_plan hPlan with hLookup | ⟨stages, rfl⟩
    · exact (isLookup_of_mem_lookups hLookup).level_ne_warning
    · intro hLevel
      cases hLevel

/-- A query that answers has a plan with the same notes, and a report after them. -/
theorem plan_of_query_ok (h : engine.query q = ⟨.ok answer, notes⟩) :
    ∃ plan, engine.plan q = ⟨.ok plan, notes ++ [plan.note]⟩ ∧ plan.result = answer ∧
      plan.inner = plan.makerLike ∪ plan.flavorUnion ∧ plan.result = plan.outer ∩ plan.inner := by
  rcases engine.lookups_cases q with ⟨failure, left, hRun, -⟩ | ⟨outer, union, hRun⟩
  · rw [query_of_lookups_error hRun] at h
    cases h
  · rw [query_of_lookups_ok hRun] at h
    cases h
    exact ⟨_, plan_of_lookups_ok hRun, rfl, rfl, rfl⟩

/-- A query that fails has a plan that fails alike. -/
theorem plan_of_query_error (h : engine.query q = ⟨.error failure, notes⟩) :
    engine.plan q = ⟨.error failure, notes⟩ ∧ engine.FailsBefore q failure notes := by
  rcases engine.lookups_cases q with ⟨cause, left, hRun, hFails⟩ | ⟨outer, union, hRun⟩
  · rw [query_of_lookups_error hRun] at h
    cases h
    exact ⟨plan_of_lookups_error hRun, hFails⟩
  · rw [query_of_lookups_ok hRun] at h
    cases h

/-- **The two ways to run a query agree**, whatever the arguments are.  A query
that answers has a plan with that result, stages that fit together and the
same notes before the report on its sizes.  A query that fails fails alike
when planned, with the notes of the lookups before the unfit argument.  No
note is a warning. -/
theorem plan_agrees_with_query (engine : Engine) (q : Query) :
    (∀ answer notes, engine.query q = ⟨.ok answer, notes⟩ →
      ∃ plan, engine.plan q = ⟨.ok plan, notes ++ [.planned plan.outer.size plan.makerLike.size
          plan.flavorUnion.size plan.inner.size plan.result.size]⟩ ∧
        plan.result = answer ∧ plan.inner = plan.makerLike ∪ plan.flavorUnion ∧
        plan.result = plan.outer ∩ plan.inner) ∧
    (∀ failure notes, engine.query q = ⟨.error failure, notes⟩ →
      engine.plan q = ⟨.error failure, notes⟩ ∧ engine.FailsBefore q failure notes) ∧
    (∀ note ∈ (engine.query q).trace, note.IsLookup) ∧
    ∀ note ∈ (engine.query q).trace ++ (engine.plan q).trace, note.level ≠ .warning := by
  refine ⟨?_, ?_, ?_, ?_⟩
  · intro answer notes h
    exact plan_of_query_ok h
  · intro failure notes h
    exact plan_of_query_error h
  · intro note hNote
    rw [trace_query] at hNote
    exact isLookup_of_mem_lookups hNote
  · intro note hNote
    exact level_ne_warning_of_mem_trace hNote

/-- A number in place of the union stops both ways after the seek and the scan. -/
theorem plan_fails_like_query_at_number :
    ∃ notes : List Note, notes.length = 2 ∧
      (holding Row.sample).query ⟨.text "Mint", .text "Creamery", .int 5⟩ =
        ⟨.error (.misuse (.noParts (.int 5))), notes⟩ ∧
      (holding Row.sample).plan ⟨.text "Mint", .text "Creamery", .int 5⟩ =
        ⟨.error (.misuse (.noParts (.int 5))), notes⟩ := by
  have hQuery : (holding Row.sample).query ⟨.text "Mint", .text "Creamery", .int 5⟩ = _ :=
    query_of_lookups_error (lookups_of_union_misuse rfl rfl)
  have hPlan := ((plan_agrees_with_query _ _).2.1 _ _ hQuery).1
  exact ⟨_, rfl, hQuery, hPlan⟩

end Engine

end FlavorTable
