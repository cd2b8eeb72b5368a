import FlavorTable.Csv.Write
import FlavorTable.Grid
import FlavorTable.Query
import FlavorTable.Record
import FlavorTable.Row.Sample

/-!
# Sessions

A session works on one engine at a time, which it may replace. Besides it
keeps a source list of loose rows, from which an engine can be built, and
registers that hold the rows of earlier answers under a name.

An engine is a snapshot: it shares nothing with the source list, and only the
building of another engine replaces it. A step that fails leaves the session
as it was; a step that needs an engine fails before anything else when there
is none.

## Main results

* `step_of_error` — a failed step changes nothing.
-/

namespace FlavorTable

/-- Where the rows of a new engine come from. -/
inductive Origin where
  | rows (value : Value)
  | sample
  | text (s : String)
  | file (file : File) (name : String)
  | source
  /-- A register, sorted. -/
  | register (name : String)
  /-- A register, written as text and parsed again. -/
  | reread (name : String)

/-- Rows given directly or by the name of a register. -/
inductive Operand where
  | rows (rows : List Row)
  | register (name : String)

/-- One step of a session. Where a step has a `keep`, its rows go into the register of that name. -/
inductive Step where
  /-- Build an engine and make it the current one. -/
  | build (origin : Origin)
  /-- Append loose rows to the source list. -/
  | append (rows : Value)
  | clear
  | rows (keep : Option String)
  | indexes
  | flavorSeek (keys : Value) (keep : Option String)
  | baseFlavorSeek (keys : Value) (keep : Option String)
  | makerScan (suffix : Value) (keep : Option String)
  | query (q : Query) (keep : Option String)
  /-- A query with all its stages; each stage has a register of its own. -/
  | plan (q : Query) (keep : Option String)
  | union (left right : Operand) (keep : Option String)
  | inter (left right : Operand) (keep : Option String)
  | sorted (operand : Operand)
  | records (operand : Operand)
  | csv (operand : Operand) (delimiter : String)
  | grid (operand : Operand) (limit : Int)

/-- What a step answers. -/
inductive Answer where
  | count (n : Nat)
  | rows (rows : List Row)
  | indexes (indexes : Indexes)
  | plan (plan : Plan)
  | records (records : List Record)
  | text (s : String)

/-- The state of a session. -/
structure Session where
  engine : Option Engine
  source : List Value
  registers : Index String (List Row)

namespace Session

def initial : Session := ⟨none, [], .empty⟩

/-! ## What a step looks up -/

def current (session : Session) : Run Engine :=
  match session.engine with
  | some engine => .ok engine
  | none => .fail .noEngine

def register (session : Session) (name : String) : Run (List Row) :=
  match session.registers.get? name with
  | some rows => .ok rows
  | none => .fail (.noRegister name)

/-- The rows that an operand stands for. -/
def operand (session : Session) : Operand → Run (List Row)
  | .rows rows => .ok rows
  | .register name => session.register name

/-- The engine that a building step makes. -/
def engineOf (session : Session) : Origin → Run Engine
  | .rows value => Engine.ofValue value
  | .sample => Engine.ofRows Row.sample
  | .text s => Engine.ofText s
  | .file file name => Engine.ofFile file name
  | .source => Engine.ofValue (.list session.source)
  | .register name => do
      let rows ← session.register name
      Engine.ofRows (Row.sorted rows)
  | .reread name => do
      let rows ← session.register name
      Engine.ofText (Csv.write rows Csv.defaultDelimiter)

/-! ## What a step keeps -/

/-- The session with rows kept under a name, if one is given. -/
def keep (session : Session) (name : Option String) (rows : List Row) : Session :=
  match name with
  | some name => { session with registers := session.registers.put name rows }
  | none => session

/-- The session with every stage of a plan kept under a name of its own. -/
def keepPlan (session : Session) (name : Option String) (plan : Plan) : Session :=
  let stages :=
    [("outer", plan.outer), ("maker_like", plan.makerLike), ("flavor_union", plan.flavorUnion),
      ("inner", plan.inner), ("result", plan.result)]
  stages.foldl (fun kept stage => kept.keep (name.map (· ++ "." ++ stage.1)) stage.2.rows) session

/-- A set as an answer that may be kept. -/
def answerSet (session : Session) (name : Option String) (set : RowSet) : Session × Answer :=
  (session.keep name set.rows, .rows set.rows)

/-! ## Steps -/

/-- The session after a step and the answer to it. -/
def execute (session : Session) : Step → Run (Session × Answer)
  | .build origin => do
      let engine ← session.engineOf origin
      return ({ session with engine := some engine }, .count engine.rows.length)
  | .append rows => do
      let values ← Run.ofExcept .misuse rows.items
      let source := session.source ++ values
      return ({ session with source }, .count source.length)
  | .clear => return ({ session with source := [] }, .count 0)
  | .rows name => do
      let engine ← session.current
      return (session.keep name engine.rows, .rows engine.rows)
  | .indexes => do
      let engine ← session.current
      return (session, .indexes engine.indexes)
  | .flavorSeek keys name => do
      let engine ← session.current
      let set ← engine.flavorSeek keys
      return session.answerSet name set
  | .baseFlavorSeek keys name => do
      let engine ← session.current
      let set ← engine.baseFlavorSeek keys
      return session.answerSet name set
  | .makerScan suffix name => do
      let engine ← session.current
      let set ← engine.makerScan suffix
      return session.answerSet name set
  | .query q name => do
      let engine ← session.current
      let set ← engine.query q
      return session.answerSet name set
  | .plan q name => do
      let engine ← session.current
      let plan ← engine.plan q
      return (session.keepPlan name plan, .plan plan)
  | .union left right name => do
      let _ ← session.current
      let left ← session.operand left
      let right ← session.operand right
      return session.answerSet name (RowSet.ofList left ∪ RowSet.ofList right)
  | .inter left right name => do
      let _ ← session.current
      let left ← session.operand left
      let right ← session.operand right
      return session.answerSet name (RowSet.ofList left ∩ RowSet.ofList right)
  | .sorted operand => do
      let rows ← session.operand operand
      return (session, .rows (Row.sorted rows))
  | .records operand => do
      let rows ← session.operand operand
      return (session, .records (Row.records rows))
  | .csv operand delimiter => do
      let rows ← session.operand operand
      return (session, .text (Csv.write rows delimiter))
  | .grid operand limit => do
      let rows ← session.operand operand
      let text ← Run.ofExcept .grid (Grid.write rows limit)
      return (session, .text text)

/-- The session after a step; a failed step leaves it as it was. -/
def step (session : Session) (s : Step) : Session :=
  match (session.execute s).outcome with
  | .ok (next, _) => next
  | .error _ => session

/-- The answer to a step, or why there is none, with the notes left on the way. -/
def answer (session : Session) (s : Step) : Run Answer := do
  let (_, answer) ← session.execute s
  return answer

/-- The answers to the steps of a session, in order. -/
def answers (session : Session) : List Step → List (Run Answer)
  | [] => []
  | s :: rest => session.answer s :: (session.step s).answers rest

/-- A failed step changes nothing. -/
theorem step_of_error {session : Session} {s : Step} {failure : Failure}
    (h : (session.execute s).outcome = .error failure) : session.step s = session := by
  simp [step, h]

end Session

end FlavorTable
