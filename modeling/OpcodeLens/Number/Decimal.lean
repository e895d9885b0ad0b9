import OpcodeLens.Number.Basic

/-!
# Decimal text of numbers

`Decimal.shortest` gives the fewest decimal digits that read back as a given value, and the nearest
such digits if there are several; a tie rule settles which of two that are equally near.
`Decimal.plain` writes them without an exponent; `Decimal.compact` writes very large and very small
values with one.
-/

namespace OpcodeLens

/-- The number `0.d₁d₂… * 10 ^ point` of the digits `d₁ d₂ …`. -/
structure Decimal where
  /-- The digits after the point, most significant first. -/
  digits : Text
  /-- The power of ten. -/
  point : Int
  deriving DecidableEq, Repr

namespace Decimal

/-! ### Shortest digits -/

/-- The values that round to the value `m * 2 ^ q`, in units of `2 ^ (q - 2)`: from `low` to `high`,
with the ends exactly when `m` is even. -/
structure Neighbourhood where
  /-- The lower end; the neighbour below a power of two is only half as far. -/
  low : Nat
  /-- The value. -/
  value : Nat
  /-- The upper end. -/
  high : Nat
  /-- Do the ends belong to it? -/
  closed : Bool

/-- The neighbourhood of `m * 2 ^ q`. -/
def neighbourhood (m : Nat) (q : Int) : Neighbourhood where
  low := if m = Nat.pow 2 52 && -1074 < q then 4 * m - 1 else 4 * m - 2
  value := 4 * m
  high := 4 * m + 2
  closed := m % 2 = 0

/-- Does `a / b` lie in the neighbourhood? -/
def Neighbourhood.holds (n : Neighbourhood) (a b : Nat) : Bool :=
  if n.closed then n.low * b ≤ a && a ≤ n.high * b else n.low * b < a && a < n.high * b

/-- The number of decimal digits of a natural number. -/
def digitCount (n : Nat) : Nat := (Nat.toDigits 10 n).length

/-- The `k` with `10 ^ (k - 1) ≤ num / den < 10 ^ k`, for positive `num` and `den`. -/
def decimalExponent (num den : Nat) : Int :=
  if den ≤ num then digitCount (num / den)
  else
    let j := digitCount (den / num)
    if num * Nat.pow 10 (j - 1) = den then 2 - (j : Int) else 1 - (j : Int)

/-- Which of two equally near decimals is taken. -/
inductive Tie where
  /-- The upper one. -/
  | up
  /-- The one with the even last digit. -/
  | even
  deriving DecidableEq, Repr

/-- The multiple of `10 ^ grid` that is nearest to the value and in its neighbourhood, in units of
`10 ^ grid`; `unit` is the exponent of the neighbourhood's unit. -/
def onGrid? (tie : Tie) (n : Neighbourhood) (unit grid : Int) : Option Nat :=
  let ten := Nat.pow 10 grid.toNat * Nat.pow 2 (-unit).toNat
  let two := Nat.pow 2 unit.toNat * Nat.pow 10 (-grid).toNat
  let below := n.value * two / ten
  let fits (d : Nat) : Bool := n.holds (d * ten) two
  let toBelow := n.value * two - below * ten
  let toAbove := (below + 1) * ten - n.value * two
  let nearerAbove : Bool :=
    toAbove < toBelow || (toAbove = toBelow && (tie = .up || below % 2 = 1))
  if fits (below + 1) && (nearerAbove || !fits below) then some (below + 1)
  else if fits below then some below
  else none

/-- The decimal `d * 10 ^ grid`, without trailing zeros. -/
def ofScaled (d : Nat) (grid : Int) : Decimal :=
  let digits := Nat.toDigits 10 d
  ⟨(digits.reverse.dropWhile (· = '0')).reverse, digits.length + grid⟩

/-- The fewest digits that read back as the positive value `num / den`. -/
def shortest (tie : Tie) (num den : Nat) : Decimal :=
  let (m, q) := Number.nearest num den
  let n := neighbourhood m q
  let k := decimalExponent num den
  let tries := (List.range 17).findSome? fun (i : Nat) =>
    let grid : Int := k - (i + 1)
    (onGrid? tie n (q - 2) grid).map fun d => ofScaled d grid
  tries.getD (ofScaled num 0)

/-! ### Layout -/

/-- The digits with the point among them and no exponent. -/
def plain (d : Decimal) : Text :=
  if d.point ≤ 0 then '0' :: '.' :: (List.replicate (-d.point).toNat '0' ++ d.digits)
  else if d.digits.length ≤ d.point.toNat then
    d.digits ++ List.replicate (d.point.toNat - d.digits.length) '0'
  else d.digits.take d.point.toNat ++ '.' :: d.digits.drop d.point.toNat

/-- The digits with one of them before the point, and a signed exponent. -/
def scientific (d : Decimal) : Text :=
  let fraction := match d.digits.drop 1 with
    | [] => []
    | rest => '.' :: rest
  let exponent := d.point - 1
  d.digits.take 1 ++ fraction ++ 'e' :: (if 0 ≤ exponent then ['+'] else []) ++ Text.ofInt exponent

/-- Without an exponent, and always with a point, from 0.00001 up to sixteen digits before the
point; with an exponent otherwise. -/
def compact (d : Decimal) : Text :=
  if -5 < d.point && d.point ≤ 16 then
    if d.digits.length ≤ d.point.toNat then d.plain ++ ['.', '0'] else d.plain
  else d.scientific

end Decimal

namespace Number

/-- A value by the given layout of its digits, with a minus sign if it is negative. -/
def writeBy (layout : Decimal → Text) (tie : Decimal.Tie) (r : Rat) : Text :=
  let digits := layout (Decimal.shortest tie r.num.natAbs r.den)
  if r.num < 0 then '-' :: digits else digits

/-- The text of a value as it is shown: without an exponent, and of two equally near decimals the
upper. -/
def display (r : Rat) : Text :=
  if isInteger r then Text.ofInt r.num else writeBy Decimal.plain .up r

/-- The text of a value in a JSON document: with an exponent where it is long, and of two equally
near decimals the even one. -/
def toJsonText (r : Rat) : Text :=
  if isInteger r then Text.ofInt r.num else writeBy Decimal.compact .even r

end Number

end OpcodeLens
