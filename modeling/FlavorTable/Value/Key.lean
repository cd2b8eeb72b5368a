import FlavorTable.Value.Basic

/-!
# Lookup keys

A seek is given its keys either as one bare text or as a collection to walk
through. Keys are compared as data: texts by their characters, numbers by
their exact value, and the null value only with itself. So `1`, `1.0` and
`true` are one key, while an integer that no float can hold is another key
than the float nearest to it. Only a text can be found in an index; the other
keys match nothing, but they count among the keys of a seek.

## Main results

* `keys_text` — a bare text is one key and not a collection of characters.
* `mem_distinct` — removing repetitions loses no key.
-/

namespace FlavorTable

inductive Key where
  | null
  | number (value : Dyadic)
  | infinite (negative : Bool)
  | undefined
  | text (s : String)
  deriving DecidableEq

namespace Key

def ofInt (n : Int) : Key := .number (.ofIntWithPrec n 0)

/-- A float as a key; a zero is one key whatever its sign. -/
def ofFloat (x : Float) : Key :=
  match Binary.ofFloat x with
  | .finite negative size =>
      let significand : Int := size.significand
      .number (.ofIntWithPrec (if negative then -significand else significand) (-size.exponent))
  | .infinite negative => .infinite negative
  | .undefined => .undefined

/-- The keys without repetitions, in the order of their first occurrence. -/
def distinct (keys : List Key) : List Key := keys.eraseDups

@[simp] theorem mem_distinct {key : Key} {keys : List Key} : key ∈ distinct keys ↔ key ∈ keys :=
  List.mem_eraseDups

end Key

namespace Value

/-- The key that a value is; a container is none. -/
def key : Value → Except Misuse Key
  | .null => .ok .null
  | .bool b => .ok (.ofInt (if b then 1 else 0))
  | .int n => .ok (.ofInt n)
  | .float x => .ok (.ofFloat x)
  | .text s => .ok (.text s)
  | value => .error (.notKey value)

/-- The distinct keys that a value stands for. -/
def keys : Value → Except Misuse (List Key)
  | .text s => .ok [.text s]
  | value => do
      let parts ← value.items
      let keys ← parts.mapM key
      return Key.distinct keys

/-- A bare text is one key. -/
@[simp] theorem keys_text (s : String) : (Value.text s).keys = .ok [.text s] := rfl

end Value

end FlavorTable
