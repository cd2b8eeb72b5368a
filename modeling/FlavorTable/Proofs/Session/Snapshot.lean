import FlavorTable.Proofs.File.Loading
import FlavorTable.Session

/-!
# The snapshot of a session

A session answers lookups from its current engine, and an engine is a snapshot:
it holds the rows that it was built over and the indexes of these rows.  A
building step gets its rows from somewhere, all of them checked, and only when
it gets them does it replace the engine.  Every other step, and a building step
that fails, keeps the engine, whatever it does to the source list and the
registers.

So after any run of steps the engine is the one built by the last building step
that succeeded.  It holds the rows that were provided to that step, however the
source list was changed since, and every lookup is answered from these rows.

## Main results

* `outcome_engineOf_eq_ok_iff`, `outcome_execute_build_eq_ok_iff` — what a building step builds,
  and what it changes.
* `step_cases` — what one step does to the engine.
* `after_cases` — what a run of steps does to it.
* `answer_lookup` — a lookup depends on the engine only.
* `session_answers_from_snapshot` — the snapshot of a session and what can change it.
-/

namespace FlavorTable

/-! ## Lookups -/

/-- What can be asked of an engine. -/
inductive Lookup where
  | rows
  | indexes
  | flavorSeek (keys : Value)
  | baseFlavorSeek (keys : Value)
  | makerScan (suffix : Value)
  | query (q : Query)
  | plan (q : Query)

namespace Lookup

/-- The step that asks the current engine. -/
def step (keep : Option String) : Lookup → Step
  | .rows => .rows keep
  | .indexes => .indexes
  | .flavorSeek keys => .flavorSeek keys keep
  | .baseFlavorSeek keys => .baseFlavorSeek keys keep
  | .makerScan suffix => .makerScan suffix keep
  | .query q => .query q keep
  | .plan q => .plan q keep

/-- What an engine answers. -/
def ask (lookup : Lookup) (engine : Engine) : Run Answer :=
  match lookup with
  | .rows => return .rows engine.rows
  | .indexes => return .indexes engine.indexes
  | .flavorSeek keys => do
      let set ← engine.flavorSeek keys
      return .rows set.rows
  | .baseFlavorSeek keys => do
      let set ← engine.baseFlavorSeek keys
      return .rows set.rows
  | .makerScan suffix => do
      let set ← engine.makerScan suffix
      return .rows set.rows
  | .query q => do
      let set ← engine.query q
      return .rows set.rows
  | .plan q => do
      let plan ← engine.plan q
      return .plan plan

end Lookup

namespace Session

variable {session : Session} {origin : Origin} {s : Step} {rows : List Row}

/-- A lookup is answered by the current engine; the rest of the session does not matter. -/
theorem answer_lookup (session : Session) (lookup : Lookup) (keep : Option String) :
    session.answer (lookup.step keep) = session.current >>= lookup.ask := by
  cases lookup <;>
    simp only [answer, execute, Lookup.step, answerSet, Run.bind_assoc, Run.pure_bind]
  all_goals rfl

/-! ## Building -/

/-- The rows that an origin provides for an engine.  They are checked, parsed or kept rows. -/
inductive Provides (session : Session) : Origin → List Row → Prop where
  | rows {value : Value} {rows : List Row} (h : Row.IsTable value rows) :
      Provides session (.rows value) rows
  | sample : Provides session .sample Row.sample
  | text {s : String} {rows : List Row} (h : Csv.parse s = .ok rows) :
      Provides session (.text s) rows
  | file {file : File} {name : String} {rows : List Row} (h : file.rows = .ok rows) :
      Provides session (.file file name) rows
  /-- The source list, as it is when the engine is built. -/
  | source {rows : List Row} (h : List.Forall₂ Row.IsTriple session.source rows) :
      Provides session .source rows
  | register {name : String} {rows : List Row} (h : session.registers.get? name = some rows) :
      Provides session (.register name) (Row.sorted rows)
  | reread {name : String} {kept rows : List Row} (hKept : session.registers.get? name = some kept)
      (hParse : Csv.parse (Csv.write kept Csv.defaultDelimiter) = .ok rows) :
      Provides session (.reread name) rows

/-- An engine is built over rows when these were read, and over no others. -/
theorem outcome_bind_ofRows_eq_ok_iff {run : Run (List Row)} {engine : Engine} :
    (run >>= Engine.ofRows).outcome = .ok engine ↔
      ∃ rows, run.outcome = .ok rows ∧ engine = .holding rows := by
  rw [Run.outcome_bind_eq_ok_iff]
  simp [Engine.ofRows_eq, eq_comm]

theorem outcome_ofText_eq_ok_iff {text : String} {engine : Engine} :
    (Engine.ofText text).outcome = .ok engine ↔
      ∃ rows, Csv.parse text = .ok rows ∧ engine = .holding rows := by
  simp only [Engine.ofText, outcome_bind_ofRows_eq_ok_iff, Run.outcome_ofExcept_eq_ok_iff]

theorem outcome_ofValue_eq_ok_iff {value : Value} {engine : Engine} :
    (Engine.ofValue value).outcome = .ok engine ↔
      ∃ rows, Row.IsTable value rows ∧ engine = .holding rows := by
  simp only [Engine.ofValue, outcome_bind_ofRows_eq_ok_iff, Run.outcome_ofExcept_eq_ok_iff,
    Row.listOfValue_eq_ok_iff]

theorem outcome_ofFile_eq_ok_iff {file : File} {name : String} {engine : Engine} :
    (Engine.ofFile file name).outcome = .ok engine ↔
      ∃ rows, file.rows = .ok rows ∧ engine = .holding rows := by
  have hLoad : ∀ rows, (file.load name).outcome = .ok rows ↔ file.rows = .ok rows := by
    intro rows
    rw [File.load_eq]
    cases file.rows <;> simp
  simp only [Engine.ofFile, outcome_bind_ofRows_eq_ok_iff, hLoad]

theorem outcome_register_eq_ok_iff {name : String} :
    (session.register name).outcome = .ok rows ↔ session.registers.get? name = some rows := by
  unfold register
  cases session.registers.get? name with
  | none => simp [Run.fail]
  | some kept => simp [Run.ok]

/-- A building step builds an engine over the rows that its origin provides, if it does. -/
theorem outcome_engineOf_eq_ok_iff {engine : Engine} :
    (session.engineOf origin).outcome = .ok engine ↔
      ∃ rows, session.Provides origin rows ∧ engine = .holding rows := by
  constructor
  · intro h
    cases origin with
    | rows value =>
        obtain ⟨rows, hTable, rfl⟩ := outcome_ofValue_eq_ok_iff.mp h
        exact ⟨rows, .rows hTable, rfl⟩
    | sample =>
        cases h
        exact ⟨_, .sample, rfl⟩
    | text s =>
        obtain ⟨rows, hParse, rfl⟩ := outcome_ofText_eq_ok_iff.mp h
        exact ⟨rows, .text hParse, rfl⟩
    | file file name =>
        obtain ⟨rows, hRows, rfl⟩ := outcome_ofFile_eq_ok_iff.mp h
        exact ⟨rows, .file hRows, rfl⟩
    | source =>
        obtain ⟨rows, hTable, rfl⟩ := outcome_ofValue_eq_ok_iff.mp h
        cases hTable with
        | list hTriples => exact ⟨rows, .source hTriples, rfl⟩
    | register name =>
        obtain ⟨kept, hKept, hEngine⟩ := Run.outcome_bind_eq_ok_iff.mp h
        cases hEngine
        exact ⟨_, .register (outcome_register_eq_ok_iff.mp hKept), rfl⟩
    | reread name =>
        obtain ⟨kept, hKept, hEngine⟩ := Run.outcome_bind_eq_ok_iff.mp h
        obtain ⟨rows, hParse, rfl⟩ := outcome_ofText_eq_ok_iff.mp hEngine
        exact ⟨rows, .reread (outcome_register_eq_ok_iff.mp hKept) hParse, rfl⟩
  · rintro ⟨rows, hProvides, rfl⟩
    cases hProvides with
    | rows h => exact outcome_ofValue_eq_ok_iff.mpr ⟨rows, h, rfl⟩
    | sample => rfl
    | text h => exact outcome_ofText_eq_ok_iff.mpr ⟨rows, h, rfl⟩
    | file h => exact outcome_ofFile_eq_ok_iff.mpr ⟨rows, h, rfl⟩
    | source h => exact outcome_ofValue_eq_ok_iff.mpr ⟨rows, .list h, rfl⟩
    | register h =>
        exact Run.outcome_bind_eq_ok_iff.mpr ⟨_, outcome_register_eq_ok_iff.mpr h, rfl⟩
    | reread hKept hParse =>
        exact Run.outcome_bind_eq_ok_iff.mpr ⟨_, outcome_register_eq_ok_iff.mpr hKept,
          outcome_ofText_eq_ok_iff.mpr ⟨rows, hParse, rfl⟩⟩

/-- A building step that succeeds makes the engine of its rows the current one, and changes
nothing else. -/
theorem outcome_execute_build_eq_ok_iff {next : Session} {answer : Answer} :
    (session.execute (.build origin)).outcome = .ok (next, answer) ↔
      ∃ rows, session.Provides origin rows ∧
        next = { session with engine := some (.holding rows) } ∧ answer = .count rows.length := by
  constructor
  · intro h
    obtain ⟨engine, hEngine, hNext⟩ := Run.outcome_bind_eq_ok_iff.mp h
    obtain ⟨rows, hProvides, rfl⟩ := outcome_engineOf_eq_ok_iff.mp hEngine
    cases hNext
    exact ⟨rows, hProvides, rfl, rfl⟩
  · rintro ⟨rows, hProvides, rfl, rfl⟩
    have hEngine := outcome_engineOf_eq_ok_iff.mpr ⟨rows, hProvides, rfl⟩
    exact Run.outcome_bind_eq_ok_iff.mpr ⟨_, hEngine, rfl⟩

/-- A building step succeeds when its origin provides rows, and answers how many there are. -/
theorem outcome_answer_build_eq_ok_iff {answer : Answer} :
    (session.answer (.build origin)).outcome = .ok answer ↔
      ∃ rows, session.Provides origin rows ∧ answer = .count rows.length := by
  constructor
  · intro h
    obtain ⟨⟨next, given⟩, hExecute, hGiven⟩ := Run.outcome_bind_eq_ok_iff.mp h
    cases hGiven
    obtain ⟨rows, hProvides, -, hCount⟩ := outcome_execute_build_eq_ok_iff.mp hExecute
    exact ⟨rows, hProvides, hCount⟩
  · rintro ⟨rows, hProvides, rfl⟩
    have hExecute := outcome_execute_build_eq_ok_iff.mpr ⟨rows, hProvides, rfl, rfl⟩
    exact Run.outcome_bind_eq_ok_iff.mpr ⟨_, hExecute, rfl⟩

/-! ## Steps that build nothing -/

/-- Whatever the run answers, its session has the same engine. -/
def KeepsEngine (session : Session) (run : Run (Session × Answer)) : Prop :=
  ∀ next answer, run.outcome = .ok (next, answer) → next.engine = session.engine

theorem keepsEngine_pure {next : Session} {answer : Answer} (h : next.engine = session.engine) :
    session.KeepsEngine (pure (next, answer)) := by
  rintro _ _ hNext
  cases hNext
  exact h

theorem keepsEngine_bind {α : Type} {run : Run α} {next : α → Run (Session × Answer)}
    (h : ∀ a, session.KeepsEngine (next a)) : session.KeepsEngine (run >>= next) := by
  intro last answer hLast
  obtain ⟨a, -, hNext⟩ := Run.outcome_bind_eq_ok_iff.mp hLast
  exact h a last answer hNext

@[simp] theorem engine_keep (session : Session) (name : Option String) (rows : List Row) :
    (session.keep name rows).engine = session.engine := by
  cases name <;> rfl

@[simp] theorem engine_keepPlan (session : Session) (name : Option String) (plan : Plan) :
    (session.keepPlan name plan).engine = session.engine := by
  simp [keepPlan]

theorem keepsEngine_answerSet (session : Session) (name : Option String) (set : RowSet) :
    session.KeepsEngine (pure (session.answerSet name set)) :=
  keepsEngine_pure (engine_keep session name set.rows)

/-- Only a building step gives the session another engine. -/
theorem keepsEngine_execute (h : ∀ origin, s ≠ .build origin) :
    session.KeepsEngine (session.execute s) := by
  cases s with
  | build origin => exact absurd rfl (h origin)
  | append values => exact keepsEngine_bind fun _ => keepsEngine_pure rfl
  | clear => exact keepsEngine_pure rfl
  | rows name => exact keepsEngine_bind fun _ => keepsEngine_pure (engine_keep _ _ _)
  | indexes => exact keepsEngine_bind fun _ => keepsEngine_pure rfl
  | flavorSeek _ name | baseFlavorSeek _ name | makerScan _ name | query _ name =>
      exact keepsEngine_bind fun _ => keepsEngine_bind fun _ => keepsEngine_answerSet _ _ _
  | plan q name =>
      exact keepsEngine_bind fun _ => keepsEngine_bind fun _ =>
        keepsEngine_pure (engine_keepPlan _ _ _)
  | union _ _ name | inter _ _ name =>
      exact keepsEngine_bind fun _ => keepsEngine_bind fun _ => keepsEngine_bind fun _ =>
        keepsEngine_answerSet _ _ _
  | sorted _ | records _ | csv _ _ => exact keepsEngine_bind fun _ => keepsEngine_pure rfl
  | grid _ limit =>
      exact keepsEngine_bind fun _ => keepsEngine_bind fun _ => keepsEngine_pure rfl

/-! ## Steps -/

/-- The step builds an engine over the rows. -/
def Builds (session : Session) (s : Step) (rows : List Row) : Prop :=
  ∃ origin, s = .build origin ∧ session.Provides origin rows

theorem Builds.step_eq (h : session.Builds s rows) :
    session.step s = { session with engine := some (.holding rows) } := by
  obtain ⟨origin, rfl, hProvides⟩ := h
  rw [step, outcome_execute_build_eq_ok_iff.mpr ⟨rows, hProvides, rfl, rfl⟩]

/-- **What one step does to the engine.** It builds another one, or keeps the one there is. -/
theorem step_cases (session : Session) (s : Step) :
    (∃ rows, session.Builds s rows ∧ (session.step s).engine = some (.holding rows)) ∨
      (∀ rows, ¬session.Builds s rows) ∧ (session.step s).engine = session.engine := by
  by_cases hBuilds : ∃ rows, session.Builds s rows
  · obtain ⟨rows, hRows⟩ := hBuilds
    exact .inl ⟨rows, hRows, by rw [hRows.step_eq]⟩
  · refine .inr ⟨fun rows hRows => hBuilds ⟨rows, hRows⟩, ?_⟩
    cases hOutcome : (session.execute s).outcome with
    | error failure => rw [step_of_error hOutcome]
    | ok result =>
        have hStep : session.step s = result.1 := by rw [step, hOutcome]
        have hNoBuild : ∀ origin, s ≠ .build origin := by
          rintro origin rfl
          obtain ⟨rows, hProvides, -, -⟩ := outcome_execute_build_eq_ok_iff.mp hOutcome
          exact hBuilds ⟨rows, origin, rfl, hProvides⟩
        rw [hStep]
        exact keepsEngine_execute hNoBuild _ _ hOutcome

/-! ## Runs of steps -/

/-- The session after several steps. -/
def after (session : Session) (steps : List Step) : Session := steps.foldl step session

/-- No step of the run builds an engine. -/
def BuildsNone (session : Session) (steps : List Step) : Prop :=
  ∀ before s later, steps = before ++ s :: later → ∀ rows, ¬(session.after before).Builds s rows

/-- Some step of the run builds an engine over the rows, and no later step builds one. -/
def BuildsLast (session : Session) (steps : List Step) (rows : List Row) : Prop :=
  ∃ before s later, steps = before ++ s :: later ∧ (session.after before).Builds s rows ∧
    (session.after (before ++ [s])).BuildsNone later

variable {steps : List Step}

theorem after_append (session : Session) (first second : List Step) :
    session.after (first ++ second) = (session.after first).after second :=
  List.foldl_append

theorem BuildsNone.cons (h : ∀ rows, ¬session.Builds s rows)
    (hRest : (session.step s).BuildsNone steps) : session.BuildsNone (s :: steps) := by
  intro before other later hSteps
  cases before with
  | nil =>
      obtain ⟨rfl, -⟩ := List.cons.inj hSteps
      exact h
  | cons first before =>
      obtain ⟨rfl, hTail⟩ := List.cons.inj hSteps
      exact hRest before other later hTail

theorem BuildsLast.cons (s : Step) (h : (session.step s).BuildsLast steps rows) :
    session.BuildsLast (s :: steps) rows := by
  obtain ⟨before, built, later, rfl, hBuilds, hNone⟩ := h
  exact ⟨s :: before, built, later, rfl, hBuilds, hNone⟩

/-- **What a run of steps does to the engine.** It is the one that was built last, or still the
one that there was. -/
theorem after_cases (session : Session) (steps : List Step) :
    (∃ rows, session.BuildsLast steps rows ∧
        (session.after steps).engine = some (.holding rows)) ∨
      session.BuildsNone steps ∧ (session.after steps).engine = session.engine := by
  induction steps generalizing session with
  | nil => exact .inr ⟨fun before s later h => by simp at h, rfl⟩
  | cons s rest ih =>
      rcases ih (session.step s) with ⟨rows, hLast, hEngine⟩ | ⟨hNone, hKept⟩
      · exact .inl ⟨rows, hLast.cons s, hEngine⟩
      · rcases session.step_cases s with ⟨rows, hBuilds, hEngine⟩ | ⟨hNoBuild, hEngine⟩
        · exact .inl ⟨rows, ⟨[], s, rest, rfl, hBuilds, hNone⟩, hKept.trans hEngine⟩
        · exact .inr ⟨.cons hNoBuild hNone, hKept.trans hEngine⟩

theorem BuildsNone.engine_after (h : session.BuildsNone steps) :
    (session.after steps).engine = session.engine := by
  rcases session.after_cases steps with ⟨rows, ⟨before, s, later, hSteps, hBuilds, -⟩, -⟩ | hKept
  · exact absurd hBuilds (h before s later hSteps rows)
  · exact hKept.2

/-- The engine is the one that was built last, and later steps do not change it. -/
theorem BuildsLast.engine_after (h : session.BuildsLast steps rows) :
    (session.after steps).engine = some (.holding rows) := by
  obtain ⟨before, s, later, rfl, hBuilds, hNone⟩ := h
  have hBuilt : (session.after (before ++ [s])).engine = some (.holding rows) := by
    rw [after_append]
    show ((session.after before).step s).engine = _
    rw [hBuilds.step_eq]
  rw [List.append_cons, after_append, hNone.engine_after, hBuilt]

/-! ## Answers -/

/-- A step that is answered by a failure changes nothing. -/
theorem step_of_answer_error {failure : Failure}
    (h : (session.answer s).outcome = .error failure) : session.step s = session := by
  cases hOutcome : (session.execute s).outcome with
  | error cause => exact step_of_error hOutcome
  | ok result =>
      have hAnswer : (session.answer s).outcome = .ok result.2 :=
        Run.outcome_bind_eq_ok_iff.mpr ⟨result, hOutcome, rfl⟩
      rw [hAnswer] at h
      cases h

/-- Nothing but a building step that succeeds changes the engine. -/
theorem engine_step_of_not_built
    (h : (∀ origin, s ≠ .build origin) ∨ ∃ failure, (session.answer s).outcome = .error failure) :
    (session.step s).engine = session.engine := by
  rcases h with hOther | ⟨failure, hFailure⟩
  · rcases session.step_cases s with ⟨rows, ⟨origin, hBuild, -⟩, -⟩ | ⟨-, hKept⟩
    · exact absurd hBuild (hOther origin)
    · exact hKept
  · rw [step_of_answer_error hFailure]

theorem answer_lookup_congr {other : Session} (h : session.engine = other.engine)
    (lookup : Lookup) (keep : Option String) :
    session.answer (lookup.step keep) = other.answer (lookup.step keep) := by
  rw [answer_lookup, answer_lookup, current, current, h]

/-- **A session answers from its last snapshot.** After any steps a building step succeeds when
its origin provides rows.  The current engine, if there is one, holds the rows that were provided
to the last building step that succeeded, with the indexes of these rows, and every lookup is
answered from it.  A step that builds nothing or fails keeps the engine and the answer to every
lookup. -/
theorem session_answers_from_snapshot (steps : List Step) :
    (∀ origin answer, ((initial.after steps).answer (.build origin)).outcome = .ok answer ↔
      ∃ rows, (initial.after steps).Provides origin rows ∧ answer = .count rows.length) ∧
    (∀ engine, (initial.after steps).engine = some engine ↔
      ∃ rows, initial.BuildsLast steps rows ∧ engine = ⟨rows, Indexes.ofRows rows⟩) ∧
    (∀ rows, initial.BuildsLast steps rows → ∀ (lookup : Lookup) (keep : Option String),
      (initial.after steps).answer (lookup.step keep) =
        lookup.ask ⟨rows, Indexes.ofRows rows⟩) ∧
    ∀ s, ((∀ origin, s ≠ .build origin) ∨
        ∃ failure, ((initial.after steps).answer s).outcome = .error failure) →
      (initial.after (steps ++ [s])).engine = (initial.after steps).engine ∧
      ∀ (lookup : Lookup) (keep : Option String),
        (initial.after (steps ++ [s])).answer (lookup.step keep) =
          (initial.after steps).answer (lookup.step keep) := by
  refine ⟨fun _ _ => outcome_answer_build_eq_ok_iff, ?_, ?_, ?_⟩
  · intro engine
    constructor
    · intro hEngine
      rcases initial.after_cases steps with ⟨rows, hLast, hBuilt⟩ | ⟨-, hKept⟩
      · rw [hBuilt] at hEngine
        exact ⟨rows, hLast, (Option.some.inj hEngine).symm⟩
      · rw [hKept] at hEngine
        cases hEngine
    · rintro ⟨rows, hLast, rfl⟩
      exact hLast.engine_after
  · intro rows hLast lookup keep
    rw [answer_lookup, current, hLast.engine_after]
    exact Run.pure_bind _ _
  · intro s hs
    have hEngine : (initial.after (steps ++ [s])).engine = (initial.after steps).engine := by
      rw [after_append]
      exact engine_step_of_not_built hs
    exact ⟨hEngine, answer_lookup_congr hEngine⟩

/-- Rows that are appended later, and a table that cannot be built with them, leave the engine. -/
example :
    (initial.after
      [.append (.list [.list [.text "Ben", .text "Mint", .text "Misc"]]), .build .source,
        .append (.list [.text "abc"]), .build .source, .clear]).engine =
      some (.holding [⟨"Ben", "Mint", "Misc"⟩]) := by
  rfl

end Session

end FlavorTable
