import FlavorTable.Failure

/-!
# Runs and their traces

A `Run` is the outcome of a computation together with the notes it left on
the way. A failure keeps the notes that were left before it, so a query that
stops at its second argument still shows the seek that it made for the first.

A note is data; its level and its wording are functions of it. A note that
shows a number which is too long to be written has no wording.

## Main results

* `bind_ok`, `bind_error` — a run goes on after a value and stops at a failure.
* `outcome_bind_eq_ok_iff` — when a run of two parts succeeds.
* `pure_bind`, `bind_pure`, `bind_assoc` — runs compose as a monad.
-/

namespace FlavorTable

/-- How much a note matters. -/
inductive Level where
  | debug
  | info
  | warning
  deriving DecidableEq, Repr

/-- Something that a computation reports about itself. -/
inductive Note where
  /-- Indexes were built: the number of rows and the number of keys of each index. -/
  | indexesBuilt (rows products flavors baseFlavors : Nat)
  /-- Some keys were looked up among the flavors, and so many rows found. -/
  | flavorSeek (keys rows : Nat)
  /-- The makers were scanned for a suffix, and so many rows found. -/
  | makerScan (suffix : Value) (makers rows : Nat)
  /-- A query was executed: the size of each stage. -/
  | planned (outer makerLike flavorUnion inner result : Nat)
  /-- A file was read. -/
  | loaded (rows : Nat) (name : String)
  /-- Keys were looked up among the base flavors, which a query never needs. -/
  | baseFlavorSeek

namespace Note

def level : Note → Level
  | .loaded .. => .info
  | .baseFlavorSeek => .warning
  | _ => .debug

def text : Note → Option String
  | .indexesBuilt rows products flavors baseFlavors =>
      some <| "Built indexes over " ++ toString rows ++ " rows: " ++ toString products ++
        " primary keys, " ++ toString flavors ++ " flavors, " ++ toString baseFlavors ++
        " base flavors"
  | .flavorSeek keys rows =>
      some <| "Flavor seek over " ++ toString keys ++ " flavors -> " ++ toString rows ++ " rows"
  | .makerScan suffix makers rows =>
      suffix.literal.map fun shown =>
        "Maker scan " ++ shown ++ " over " ++ toString makers ++ " makers -> " ++
          toString rows ++ " rows"
  | .planned outer makerLike flavorUnion inner result =>
      some <| "Plan: outer=" ++ toString outer ++ " maker_like=" ++ toString makerLike ++
        " flavor_union=" ++ toString flavorUnion ++ " inner=" ++ toString inner ++
        " result=" ++ toString result
  | .loaded rows name => some <| "Loaded " ++ toString rows ++ " rows from " ++ name
  | .baseFlavorSeek =>
      some "get_base_flavor_set is inefficient for this query, use get_flavor_set"

end Note

/-- An outcome and the notes left before it. -/
structure Run (α : Type) where
  outcome : Except Failure α
  trace : List Note

namespace Run

variable {α β γ : Type}

/-- A value, without notes. -/
def ok (a : α) : Run α := ⟨.ok a, []⟩

/-- A failure, without notes. -/
def fail (failure : Failure) : Run α := ⟨.error failure, []⟩

def note (n : Note) : Run Unit := ⟨.ok (), [n]⟩

/-- An outcome, without notes. -/
def ofExcept {ε : Type} (cause : ε → Failure) (outcome : Except ε α) : Run α :=
  ⟨outcome.mapError cause, []⟩

@[simp] theorem ofExcept_ok {ε : Type} (cause : ε → Failure) (a : α) :
    ofExcept cause (.ok a) = ⟨.ok a, []⟩ := rfl

@[simp] theorem ofExcept_error {ε : Type} (cause : ε → Failure) (fault : ε) :
    ofExcept cause (.error fault : Except ε α) = ⟨.error (cause fault), []⟩ := rfl

/-- One run after another; a failure ends both. -/
def andThen (run : Run α) (next : α → Run β) : Run β :=
  match run.outcome with
  | .ok a => ⟨(next a).outcome, run.trace ++ (next a).trace⟩
  | .error failure => ⟨.error failure, run.trace⟩

instance : Monad Run where
  pure := ok
  bind := andThen

@[simp] theorem pure_def (a : α) : (pure a : Run α) = ⟨.ok a, []⟩ := rfl

/-- After a value the run goes on. -/
@[simp] theorem bind_ok (a : α) (trace : List Note) (next : α → Run β) :
    (⟨.ok a, trace⟩ : Run α) >>= next = ⟨(next a).outcome, trace ++ (next a).trace⟩ := rfl

/-- A failure ends the run and keeps the notes. -/
@[simp] theorem bind_error (failure : Failure) (trace : List Note) (next : α → Run β) :
    (⟨.error failure, trace⟩ : Run α) >>= next = ⟨.error failure, trace⟩ := rfl

/-- A run of two parts succeeds when both do. -/
theorem outcome_bind_eq_ok_iff {run : Run α} {next : α → Run β} {b : β} :
    (run >>= next).outcome = .ok b ↔ ∃ a, run.outcome = .ok a ∧ (next a).outcome = .ok b := by
  obtain ⟨outcome, trace⟩ := run
  cases outcome <;> simp

theorem outcome_ofExcept_eq_ok_iff {ε : Type} {cause : ε → Failure} {outcome : Except ε α}
    {a : α} : (ofExcept cause outcome).outcome = .ok a ↔ outcome = .ok a := by
  cases outcome <;> simp

theorem pure_bind (a : α) (next : α → Run β) : (pure a : Run α) >>= next = next a := by
  simp

theorem bind_pure (run : Run α) : run >>= pure = run := by
  obtain ⟨outcome, trace⟩ := run
  cases outcome <;> simp

theorem bind_assoc (run : Run α) (next : α → Run β) (last : β → Run γ) :
    run >>= next >>= last = run >>= fun a => next a >>= last := by
  obtain ⟨outcome, trace⟩ := run
  cases outcome with
  | error => simp
  | ok a =>
      rw [bind_ok, bind_ok]
      obtain ⟨result, notes⟩ := next a
      cases result <;> simp

end Run

end FlavorTable
