import FlavorTable.File
import FlavorTable.Indexes
import FlavorTable.Row.Set
import FlavorTable.Text.Word
import FlavorTable.Value.Key

/-!
# The engine

An engine is a snapshot of a table: its rows and the indexes built over them
once and for all. It answers two kinds of lookup.

* A *seek* takes a collection of keys and collects the groups of an index
  under them. Keys that are not in the index contribute nothing.
* A *scan* goes through the primary index and keeps the rows whose maker ends
  in a given word. A maker is tested once, however many products it has.

Scanning sees one row for each product, the last one entered; seeking sees
every row.

## Main results

* `outcome_ofRows` — what an engine over given rows holds.
* `mem_group` — a seek finds the rows that the groups of its keys spell out.
-/

namespace FlavorTable

/-- Whether the last word of a maker's name is the given suffix. -/
def endsInWord (maker suffix : String) : Bool := Text.lastWord maker = suffix

structure Engine where
  rows : List Row
  indexes : Indexes
  deriving DecidableEq, Repr

namespace Engine

/-! ## Building engines -/

def ofRows (rows : List Row) : Run Engine := do
  let indexes := Indexes.ofRows rows
  Run.note (.indexesBuilt rows.length indexes.primary.size indexes.byFlavor.size
    indexes.byBaseFlavor.size)
  return ⟨rows, indexes⟩

/-- The engine over rows given as loose data; nothing is built before all of them are checked. -/
def ofValue (value : Value) : Run Engine := do
  let rows ← Run.ofExcept .ofRefusal (Row.listOfValue value)
  ofRows rows

def ofText (text : String) : Run Engine := do
  let rows ← Run.ofExcept .csv (Csv.parse text)
  ofRows rows

def ofFile (file : File) (name : String) : Run Engine := do
  let rows ← file.load name
  ofRows rows

theorem outcome_ofRows (rows : List Row) :
    (ofRows rows).outcome = .ok ⟨rows, Indexes.ofRows rows⟩ := rfl

/-! ## Seeks -/

/-- The group that an index has under a key; only texts are found. -/
def group (index : Index String (List (String × String))) (row : String → String × String → Row) :
    Key → List Row
  | .text s => ((index.get? s).getD []).map (row s)
  | _ => []

/-- The rows that have one of the keys as their flavor. -/
def rowsByFlavor (engine : Engine) (keys : List Key) : RowSet :=
  .ofList <| keys.flatMap <| group engine.indexes.byFlavor fun flavor entry =>
    ⟨entry.1, flavor, entry.2⟩

/-- The rows that have one of the keys as their base flavor. -/
def rowsByBaseFlavor (engine : Engine) (keys : List Key) : RowSet :=
  .ofList <| keys.flatMap <| group engine.indexes.byBaseFlavor fun baseFlavor entry =>
    ⟨entry.1, entry.2, baseFlavor⟩

def flavorSeek (engine : Engine) (flavors : Value) : Run RowSet := do
  let keys ← Run.ofExcept .misuse flavors.keys
  let found := engine.rowsByFlavor keys
  Run.note (.flavorSeek keys.length found.size)
  return found

/-- A seek in the base flavor index. It finds more than a query needs, and says so first. -/
def baseFlavorSeek (engine : Engine) (baseFlavors : Value) : Run RowSet := do
  Run.note .baseFlavorSeek
  let keys ← Run.ofExcept .misuse baseFlavors.keys
  return engine.rowsByBaseFlavor keys

/-- A group spells out the rows under its key. -/
theorem mem_group {index : Index String (List (String × String))}
    {row : String → String × String → Row} {key : Key} {found : Row} :
    found ∈ group index row key ↔
      ∃ s, key = .text s ∧ ∃ entry ∈ (index.get? s).getD [], row s entry = found := by
  cases key <;> simp [group]

/-! ## Scans -/

/-- A scan under way: the makers tested so far with their answers, and the rows kept. -/
structure Scan where
  tested : Index String Bool
  kept : List Row

/-- Whether a maker matches a suffix; a suffix that is not a text matches no maker. -/
def makerMatches (suffix : Value) (maker : String) : Bool :=
  match suffix with
  | .text word => endsInWord maker word
  | _ => false

/-- One entry of the primary index. A maker that was tested before is not tested again. -/
def Scan.step (suffix : Value) (scan : Scan) (entry : (String × String) × String) : Scan :=
  let ((maker, flavor), baseFlavor) := entry
  let answer := (scan.tested.get? maker).getD (makerMatches suffix maker)
  { tested := scan.tested.put maker answer
    kept := if answer then scan.kept ++ [⟨maker, flavor, baseFlavor⟩] else scan.kept }

def scan (engine : Engine) (suffix : Value) : Scan :=
  engine.indexes.primary.entries.foldl (Scan.step suffix) ⟨.empty, []⟩

/-- The rows of the primary index whose maker ends in the suffix. -/
def makerScan (engine : Engine) (suffix : Value) : Run RowSet := do
  let scan := engine.scan suffix
  let found := RowSet.ofList scan.kept
  Run.note (.makerScan suffix scan.tested.size found.size)
  return found

end Engine

end FlavorTable
