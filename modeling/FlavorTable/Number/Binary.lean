/-!
# Floating-point numbers, taken apart

A float is sixty-four bits: the sign, eleven bits of exponent and fifty-two of
fraction. A finite float is an integer times a power of two, so it can be
compared with an integer, and with the decimals near it, without rounding.
The exponent field of all ones is kept for the infinities and for what is no
number; in the exponent field of all zeros the leading bit of the significand
is a zero instead of a one.

## Main results

* `significand_lt` — a significand has at most fifty-three bits.
-/

namespace FlavorTable

/-- The number `significand · 2 ^ exponent`. -/
structure Magnitude where
  significand : Nat
  exponent : Int
  deriving DecidableEq, Repr

/-- What the bits of a float say. -/
inductive Binary where
  /-- A number, below zero if `negative`. -/
  | finite (negative : Bool) (size : Magnitude)
  /-- One of the two infinities. -/
  | infinite (negative : Bool)
  | undefined
  deriving DecidableEq, Repr

namespace Binary

/-- The weight of the exponent's last bit, which is the significand's leading bit. -/
def leadingBit : Nat := 0x10000000000000

/-- The weight of the sign's bit. -/
def signBit : Nat := 0x8000000000000000

/-- The magnitude with the given exponent field, not of all ones, and the given fraction. -/
def magnitude (field fraction : Nat) : Magnitude :=
  if field = 0 then ⟨fraction, -1074⟩ else ⟨leadingBit + fraction, (field : Int) - 1075⟩

def ofBits (bits : Nat) : Binary :=
  let negative := decide (signBit ≤ bits)
  let field := bits / leadingBit % 0x800
  let fraction := bits % leadingBit
  if field = 0x7FF then
    if fraction = 0 then .infinite negative else .undefined
  else .finite negative (magnitude field fraction)

def ofFloat (x : Float) : Binary := ofBits x.toBits.toNat

theorem significand_magnitude_lt {fraction : Nat} (h : fraction < leadingBit) (field : Nat) :
    (magnitude field fraction).significand < 2 * leadingBit := by
  unfold magnitude
  split
  · show fraction < 2 * leadingBit
    omega
  · show leadingBit + fraction < 2 * leadingBit
    omega

/-- A significand has at most fifty-three bits. -/
theorem significand_lt {bits : Nat} {negative : Bool} {size : Magnitude}
    (h : ofBits bits = .finite negative size) : size.significand < 2 * leadingBit := by
  have hFraction : bits % leadingBit < leadingBit := Nat.mod_lt _ (by decide)
  unfold ofBits at h
  dsimp only at h
  split at h
  · split at h <;> cases h
  · cases h
    exact significand_magnitude_lt hFraction _

end Binary

end FlavorTable
