/-!
# Indexes

An index holds one entry for each of its keys and lists the keys in the order
in which they first appeared. All updates go through `alter`, which changes
the entry of one key in place or appends a new one. A unique index overwrites
the entry (`put`); a grouped index extends it (`push`).

## Main results

* `get?_alter_self`, `get?_alter_of_ne` — only the altered key changes.
* `keys_alter` — a key is appended once and never moves.
-/

namespace FlavorTable

/-- Keys in the order of their first appearance, each with its entry. -/
structure Index (κ α : Type) where
  entries : List (κ × α)
  deriving DecidableEq, Repr

namespace Index

variable {κ α β : Type}

def empty : Index κ α := ⟨[]⟩

def keys (index : Index κ α) : List κ := index.entries.map Prod.fst

def size (index : Index κ α) : Nat := index.entries.length

/-- The entries in ascending order of their keys, given the texts that a key consists of. -/
def ascending (texts : κ → List String) (index : Index κ α) : List (κ × α) :=
  index.entries.mergeSort fun a b => (compare (texts a.1) (texts b.1)).isLE

variable [DecidableEq κ]

/-- The entry of the first pair with the given key. -/
def find (key : κ) : List (κ × α) → Option α
  | [] => none
  | (k, a) :: rest => if k = key then some a else find key rest

/-- The entry of a key, if there is one. -/
def get? (index : Index κ α) (key : κ) : Option α := find key index.entries

/-- The entry of a key changed in place, or appended at the end. -/
def alterEntries (key : κ) (change : Option α → α) : List (κ × α) → List (κ × α)
  | [] => [(key, change none)]
  | (k, a) :: rest =>
      if k = key then (k, change (some a)) :: rest else (k, a) :: alterEntries key change rest

/-- The index with the entry of one key changed. -/
def alter (index : Index κ α) (key : κ) (change : Option α → α) : Index κ α :=
  ⟨alterEntries key change index.entries⟩

/-- The index in which `key` has the entry `a`. -/
def put (index : Index κ α) (key : κ) (a : α) : Index κ α := index.alter key fun _ => a

/-- The index in which the group of `key` has one more element at its end. -/
def push (index : Index κ (List β)) (key : κ) (b : β) : Index κ (List β) :=
  index.alter key fun group => group.getD [] ++ [b]

/-! ## What an update changes -/

@[simp] theorem get?_empty (key : κ) : (empty : Index κ α).get? key = none := rfl

/-- The altered key has the changed entry. -/
@[simp] theorem get?_alter_self (index : Index κ α) (key : κ) (change : Option α → α) :
    (index.alter key change).get? key = some (change (index.get? key)) := by
  obtain ⟨entries⟩ := index
  simp only [get?, alter]
  induction entries with
  | nil => simp [alterEntries, find]
  | cons entry rest ih =>
      obtain ⟨k, a⟩ := entry
      by_cases hKey : k = key <;> simp [alterEntries, find, hKey, ih]

/-- Every other key keeps its entry. -/
theorem get?_alter_of_ne (index : Index κ α) {key other : κ} (change : Option α → α)
    (h : other ≠ key) : (index.alter key change).get? other = index.get? other := by
  obtain ⟨entries⟩ := index
  simp only [get?, alter]
  induction entries with
  | nil => simp [alterEntries, find, h.symm]
  | cons entry rest ih =>
      obtain ⟨k, a⟩ := entry
      by_cases hKey : k = key
      · subst hKey
        simp [alterEntries, find, h.symm]
      · rw [alterEntries, if_neg hKey, find, find, ih]

/-- A key is appended once and never moves. -/
theorem keys_alter (index : Index κ α) (key : κ) (change : Option α → α) :
    (index.alter key change).keys =
      if key ∈ index.keys then index.keys else index.keys ++ [key] := by
  obtain ⟨entries⟩ := index
  simp only [keys, alter]
  induction entries with
  | nil => simp [alterEntries]
  | cons entry rest ih =>
      obtain ⟨k, a⟩ := entry
      by_cases hKey : k = key
      · simp [alterEntries, hKey]
      · have hKey' : key ≠ k := fun hEq => hKey hEq.symm
        rw [alterEntries, if_neg hKey, List.map_cons, ih]
        by_cases hMem : key ∈ rest.map Prod.fst <;> simp [hKey', hMem]

end Index

end FlavorTable
