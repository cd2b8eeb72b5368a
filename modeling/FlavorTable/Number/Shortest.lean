import FlavorTable.Number.Binary

/-!
# The shortest decimal that reads back

A decimal reads back to a float when it lies among the reals that round to it:
between the midpoints to the two neighbouring floats, the midpoints included
when the significand is even. A float is written by the shortest decimal that
reads back and, among decimals of one length, by the nearest; of two that are
equally near, by the even one.

All comparisons are exact. They are made in quarters of the last place of the
significand, where both midpoints are integers: the upper one is two quarters
up, the lower one two quarters down, or one below a power of two, where the
floats lie twice as dense.

## Main results

* `readsBack_of_search` — what the search finds reads back.
-/

namespace FlavorTable.Magnitude

/-- The value in quarters of the last place. -/
def quarters (x : Magnitude) : Nat := 4 * x.significand

/-- The lower midpoint in quarters of the last place. -/
def lower (x : Magnitude) : Nat :=
  if x.significand = Binary.leadingBit ∧ -1074 < x.exponent then x.quarters - 1
  else x.quarters - 2

/-- The upper midpoint in quarters of the last place. -/
def upper (x : Magnitude) : Nat := x.quarters + 2

/-! ## Decimal grids

The multiples of `10 ^ e` are compared with quarters by bringing both to whole
numbers. -/

/-- The weight of a quarter beside the multiples of `10 ^ e`. -/
def quarterWeight (x : Magnitude) (e : Int) : Nat :=
  (1 <<< (x.exponent - 2).toNat) * Nat.pow 10 (-e).toNat

/-- The weight of `10 ^ e` beside the quarters. -/
def stepWeight (x : Magnitude) (e : Int) : Nat :=
  (1 <<< (2 - x.exponent).toNat) * Nat.pow 10 e.toNat

/-- The decimal `d · 10 ^ e` reads back. -/
def ReadsBack (x : Magnitude) (d : Nat) (e : Int) : Prop :=
  let low := x.lower * x.quarterWeight e
  let high := x.upper * x.quarterWeight e
  let here := d * x.stepWeight e
  low ≤ here ∧ here ≤ high ∧ (x.significand % 2 = 0 ∨ low ≠ here ∧ here ≠ high)

instance (x : Magnitude) (d : Nat) (e : Int) : Decidable (x.ReadsBack d e) := by
  unfold ReadsBack
  infer_instance

/-- The two multiples of `10 ^ e` around the value, the one to be preferred first. -/
def neighbours (x : Magnitude) (e : Int) : List Nat :=
  let value := x.quarters * x.quarterWeight e
  let below := value / x.stepWeight e
  let sum := (2 * below + 1) * x.stepWeight e
  if 2 * value < sum ∨ 2 * value = sum ∧ below % 2 = 0 then [below, below + 1]
  else [below + 1, below]

/-! ## The search -/

/-- The least `k` with the value below `10 ^ k`, of a value that is not zero. -/
def pointPlace (x : Magnitude) : Int :=
  let upper := x.significand <<< x.exponent.toNat
  let under := 1 <<< (-x.exponent).toNat
  if under ≤ upper then (Nat.toDigits 10 (upper / under)).length
  else 1 - (Nat.toDigits 10 ((under - 1) / upper)).length

/-- The shortest decimal that reads back, as a multiple of a power of ten. -/
def search (x : Magnitude) : Option (Nat × Int) :=
  (List.range 17).findSome? fun (n : Nat) =>
    let e := x.pointPlace - 1 - n
    ((x.neighbours e).find? fun d => decide (x.ReadsBack d e)).map fun d => (d, e)

/-- The value itself as a multiple of a power of ten. -/
def exact (x : Magnitude) : Nat × Int :=
  if 0 ≤ x.exponent then (x.significand <<< x.exponent.toNat, 0)
  else (x.significand * Nat.pow 5 (-x.exponent).toNat, x.exponent)

/-- The decimal that the search finds, which is one for every float but zero. -/
def shortest (x : Magnitude) : Nat × Int := x.search.getD x.exact

/-- What the search finds reads back. -/
theorem readsBack_of_search {x : Magnitude} {d : Nat} {e : Int} (h : x.search = some (d, e)) :
    x.ReadsBack d e := by
  obtain ⟨n, _, hFind⟩ := List.exists_of_findSome?_eq_some h
  obtain ⟨found, hFound, hEq⟩ := Option.map_eq_some_iff.1 hFind
  cases hEq
  have hHolds := List.find?_some hFound
  exact of_decide_eq_true hHolds

end FlavorTable.Magnitude
