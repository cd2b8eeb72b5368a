import FlavorTable.Number.Shortest

/-!
# Numeric literals

A float is written with the digits of the shortest decimal that reads back.
The decimal point is set among the digits when the leading one has a place
from `10 ^ -4` to `10 ^ 15`, with at least one digit on each side of it.
Beyond that the point follows the leading digit, and a signed exponent of at
least two digits is added. A zero keeps its sign.

An integer is written in full, but only up to a limit on its digits. A number
beyond the limit has no literal, and no text can be composed that shows it.
-/

namespace FlavorTable.Number

/-! ## Integers -/

/-- The number of digits up to which an integer is written. -/
def digitLimit : Nat := 4300

/-- The integer has more digits than are written; its sign is none of them. -/
def TooLong (n : Int) : Prop := digitLimit < (Nat.toDigits 10 n.natAbs).length

instance (n : Int) : Decidable (TooLong n) := inferInstanceAs (Decidable (_ < _))

/-- An integer in decimal, unless it is too long. -/
def integer (n : Int) : Option String := if TooLong n then none else some (toString n)

/-! ## Floats -/

/-- Digits, or one zero if there are none. -/
def orZero (digits : List Char) : List Char := if digits = [] then ['0'] else digits

/-- The digits before the point, of the number `0.digits · 10 ^ point`. -/
def whole (digits : List Char) (point : Int) : List Char :=
  (digits.take point.toNat).rightpad point.toNat '0'

/-- The digits after the point, of the number `0.digits · 10 ^ point`. -/
def fraction (digits : List Char) (point : Int) : List Char :=
  List.replicate (-point).toNat '0' ++ digits.drop point.toNat

/-- The number `0.digits · 10 ^ point` with its point set among the digits. -/
def positional (digits : List Char) (point : Int) : List Char :=
  orZero (whole digits point) ++ '.' :: orZero (fraction digits point)

/-- The number `0.digits · 10 ^ point` with an exponent. -/
def scientific (digits : List Char) (point : Int) : List Char :=
  let power := point - 1
  let rest := digits.drop 1
  digits.take 1 ++ (if rest = [] then [] else '.' :: rest) ++
    'e' :: (if power < 0 then '-' else '+') :: (Nat.toDigits 10 power.natAbs).leftpad 2 '0'

/-- The decimal `d · 10 ^ e`, its last zeros dropped. -/
def decimal (d : Nat) (e : Int) : List Char :=
  let all := Nat.toDigits 10 d
  let point := all.length + e
  let digits := (all.reverse.dropWhile (· == '0')).reverse
  if -4 < point ∧ point ≤ 16 then positional digits point else scientific digits point

def magnitude (x : Magnitude) : List Char :=
  if x.significand = 0 then ['0', '.', '0'] else decimal x.shortest.1 x.shortest.2

def sign (negative : Bool) : List Char := if negative then ['-'] else []

def literal (x : Float) : String :=
  match Binary.ofFloat x with
  | .finite negative size => .ofList (sign negative ++ magnitude size)
  | .infinite negative => .ofList (sign negative ++ ['i', 'n', 'f'])
  | .undefined => "nan"

end FlavorTable.Number
