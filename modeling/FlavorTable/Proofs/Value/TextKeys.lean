import FlavorTable.Proofs.Value.Collection

/-!
# Collections of texts

Most lookups are made with texts only: one bare text, a list of texts, or a
record, which stands for its field names.  `TextKeys` is such a collection and
`TextKeys.value` the loose data that it is handed over as.  It is a collection
of keys, which never fails to stand for them, and the keys are its texts.

## Main results

* `keys_value` — the keys of the data are the distinct texts.
* `mem_keys_iff` — looking a text up among the keys is membership.
-/

namespace FlavorTable

/-- A collection of texts to look up. -/
inductive TextKeys where
  | one (s : String)
  | list (texts : List String)
  | record (names : FieldNames) (field : {name // name ∈ names.list} → Value)

namespace TextKeys

/-- The collection as loose data. -/
def value : TextKeys → Value
  | .one s => .text s
  | .list texts => .list (texts.map .text)
  | .record names field => .record names field

/-- The texts of the collection, in order and with repetitions. -/
def texts : TextKeys → List String
  | .one s => [s]
  | .list texts => texts
  | .record names _ => names.list

instance : Membership String TextKeys := ⟨fun keys s => s ∈ keys.texts⟩

theorem mem_def {s : String} {keys : TextKeys} : s ∈ keys ↔ s ∈ keys.texts := Iff.rfl

instance (s : String) (keys : TextKeys) : Decidable (s ∈ keys) :=
  inferInstanceAs (Decidable (s ∈ keys.texts))

/-- The lookup keys of the collection. -/
def keys (collection : TextKeys) : List Key := Key.distinct (collection.texts.map .text)

theorem mapM_key_text (texts : List String) :
    (texts.map Value.text).mapM Value.key = .ok (texts.map .text) := by
  induction texts with
  | nil => rfl
  | cons s rest ih =>
      rw [List.map_cons, List.mapM_cons, ih]
      rfl

/-- A collection of texts is a collection of keys, whatever its shape is. -/
def collection (texts : TextKeys) : KeyCollection where
  value := texts.value
  entries := texts.texts.map .text
  keys := texts.texts.map .text
  entries_value := by cases texts <;> simp [value, TextKeys.texts, Value.entries, Value.items]
  keys_entries := mapM_key_text texts.texts

/-- A collection of texts always stands for keys, namely its texts. -/
theorem keys_value (texts : TextKeys) : texts.value.keys = .ok texts.keys :=
  texts.collection.keys_value

theorem mem_keys_iff {s : String} {collection : TextKeys} :
    Key.text s ∈ collection.keys ↔ s ∈ collection := by
  rw [keys, Key.mem_distinct, List.mem_map, mem_def]
  constructor
  · intro h
    obtain ⟨found, hMem, hEq⟩ := h
    exact Key.text.inj hEq ▸ hMem
  · intro hMem
    exact ⟨s, hMem, rfl⟩

end TextKeys

end FlavorTable
