import OpcodeLens.Number.Basic

/-!
# Reading numerals

A numeral is an optional sign, then either `0x` and a hexadecimal integer of at most 64 bits with
its own optional sign, or a decimal number: digits with an optional point and an optional exponent.
What is too large to be a number is no numeral. `Numeral.read?` gives the value nearest to what is
written.
-/

namespace OpcodeLens

namespace Numeral

/-- The value of a digit in a base up to sixteen, in either case. -/
def digit? (base : Nat) (c : Char) : Option Nat := (Text.hexDigit? c).filter (· < base)

/-- The value of a sequence of digits that follows digits of value `n`. -/
def digitsFrom? (base n : Nat) : Text → Option Nat
  | [] => some n
  | c :: rest => (digit? base c).bind fun d => digitsFrom? base (base * n + d) rest

/-- The value of a sequence of digits; there must be at least one. -/
def digits? (base : Nat) (text : Text) : Option Nat :=
  if text.isEmpty then none else digitsFrom? base 0 text

/-- Takes a sign off the front: is it a minus, and what follows? -/
def takeSign : Text → Bool × Text
  | '-' :: rest => (true, rest)
  | '+' :: rest => (false, rest)
  | text => (false, text)

/-- A hexadecimal integer with an optional sign, within the range of signed 64-bit integers. -/
def hex? (text : Text) : Option Int :=
  let (negative, digits) := takeSign text
  (digits? 16 digits).bind fun n =>
    if negative then if n ≤ Nat.pow 2 63 then some (-(n : Int)) else none
    else if n < Nat.pow 2 63 then some (n : Int) else none

/-- The exponent that a decimal number ends with: zero if there is nothing. -/
def exponent? : Text → Option Int
  | [] => some 0
  | mark :: rest =>
    if mark = 'e' || mark = 'E' then
      let (negative, digits) := takeSign rest
      (digits? 10 digits).map fun n => if negative then -(n : Int) else n
    else none

/-- The value nearest to `m * 10 ^ e`. Exponents far outside the range of values are not expanded.
-/
def scaled? (m : Nat) (e : Int) : Option Rat :=
  if m = 0 then some 0
  else
    let size := (Nat.toDigits 10 m).length + e
    if 400 < size then none
    else if size < -400 then some 0
    else Number.round? (mkRat (m * Nat.pow 10 e.toNat : Nat) (Nat.pow 10 (-e).toNat))

/-- A decimal number without a sign: digits, with or without a point among them, of which there is
at least one, and an optional exponent. -/
def decimal? (text : Text) : Option Rat :=
  let whole := text.takeWhile Char.isDigit
  let (fraction, tail) := match text.dropWhile Char.isDigit with
    | '.' :: rest => (rest.takeWhile Char.isDigit, rest.dropWhile Char.isDigit)
    | rest => ([], rest)
  (digits? 10 (whole ++ fraction)).bind fun m =>
    (exponent? tail).bind fun e => scaled? m (e - fraction.length)

/-- The value of a numeral after its sign. -/
def unsigned? : Text → Option Rat
  | '0' :: 'x' :: rest => (hex? rest).bind fun n => Number.round? n
  | '0' :: 'X' :: rest => (hex? rest).bind fun n => Number.round? n
  | text =>
    if text.head?.any fun c => c.isDigit || c = '.' then decimal? text else none

/-- The value of a numeral. -/
def read? (text : Text) : Option Rat :=
  let (negative, rest) := takeSign text
  (unsigned? rest).map fun r => if negative then -r else r

end Numeral

end OpcodeLens
