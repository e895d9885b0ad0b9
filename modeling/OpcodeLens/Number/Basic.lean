import OpcodeLens.Text.Basic

/-!
# Numbers with 53 significant bits

Numeric values are kept in the binary floating-point format with 53 significant bits and exponents
from -1074 up, but as the exact rationals that they stand for. `Number.round?` takes a rational to
the nearest value of the format, and to the one with the even significand when two are equally near;
there is none for what would round to 2 ^ 1024 or more.
-/

namespace OpcodeLens

namespace Number

/-- The quotient of two natural numbers, rounded to the nearest one and half way to the even one. -/
def divideNearest (a b : Nat) : Nat :=
  let quotient := a / b
  let twice := 2 * (a % b)
  if twice < b then quotient
  else if b < twice then quotient + 1
  else quotient + quotient % 2

/-- The greatest `e` with `2 ^ e ≤ num / den`, for positive `num` and `den`. -/
def binaryExponent (num den : Nat) : Int :=
  let e := (Nat.log2 num : Int) - Nat.log2 den
  if num * Nat.pow 2 (-e).toNat < den * Nat.pow 2 e.toNat then e - 1 else e

/-- The exponent of the last significant bit near `num / den`. -/
def unitExponent (num den : Nat) : Int := max (binaryExponent num den - 52) (-1074)

/-- The significand and exponent of the value nearest to `num / den`. -/
def nearest (num den : Nat) : Nat × Int :=
  let q := unitExponent num den
  (divideNearest (num * Nat.pow 2 (-q).toNat) (den * Nat.pow 2 q.toNat), q)

/-- The rational `m * 2 ^ q`. -/
def scale (m : Nat) (q : Int) : Rat := mkRat (m * Nat.pow 2 q.toNat : Nat) (Nat.pow 2 (-q).toNat)

/-- The value nearest to a rational. -/
def round? (r : Rat) : Option Rat :=
  if r.num = 0 then some 0
  else
    let (m, q) := nearest r.num.natAbs r.den
    if Nat.pow 2 1024 ≤ m * Nat.pow 2 q.toNat then none
    else some (if r.num < 0 then -scale m q else scale m q)

/-- The value nearest to the one above `r`. -/
def succ (r : Rat) : Rat := (round? (r + 1)).getD r

/-- Is the value a whole number that is written as one: below nine quadrillion in magnitude? -/
def isInteger (r : Rat) : Bool := r.den = 1 && r.num.natAbs < 9000000000000000

end Number

end OpcodeLens
