/-
The text of a number: the fewest significant digits that read back as the same number, and of those
the nearest. Values from 10^-6 up to 10^21 are written positionally, others with an exponent.
-/

import EightBit.Number.Rounding

namespace EightBit

/-- The rational `10 ^ exponent`. -/
def tenTo : Int → Rat
  | .ofNat exponent => ((Nat.pow 10 exponent : Nat) : Rat)
  | .negSucc exponent => mkRat 1 (Nat.pow 10 (exponent + 1))

/-- A decimal `significand * 10 ^ exponent`. -/
structure Decimal where
  significand : Nat
  exponent : Int
  deriving DecidableEq, Repr

namespace Decimal

def value (decimal : Decimal) : Rat :=
  (decimal.significand : Rat) * tenTo decimal.exponent

/-! ### The shortest decimal that reads back -/

def digitCount (value : Nat) : Nat :=
  (Nat.toDigits 10 value).length

/-- For a positive value, how many digits stand before its decimal point: `n` with
`10 ^ (n - 1) ≤ value < 10 ^ n`. -/
def integerDigits (value : Rat) : Int :=
  let estimate : Int := digitCount value.num.natAbs - digitCount value.den
  if tenTo estimate ≤ value then estimate + 1 else estimate

/-- Whether a decimal is read as the given value. -/
def readsAs (value : Rat) (decimal : Decimal) : Bool :=
  Number.nearest decimal.value = .finite value

/-- Of the two decimals around a value with the given last place, the one that reads back; of two
that do, the nearer, and halfway the even one. -/
def onGrid (value : Rat) (place : Int) : Option Decimal :=
  let scaled := value / tenTo place
  let below := scaled.floor
  let low : Decimal := ⟨below.toNat, place⟩
  let high : Decimal := ⟨below.toNat + 1, place⟩
  match low.readsAs value, high.readsAs value with
  | true, true => some (if roundHalfEven scaled = below then low else high)
  | true, false => some low
  | false, true => some high
  | false, false => none

/-- Tries the given number of grids, from the last place downward. -/
def search (value : Rat) : Nat → Int → Decimal
  | 0, place => ⟨(value / tenTo place).floor.toNat, place⟩
  | remaining + 1, place =>
    match onGrid value place with
    | some decimal => decimal
    | none => search value remaining (place - 1)

/-- The shortest decimal that reads back as a positive representable value. Seventeen digits always
do. -/
def shortest (value : Rat) : Decimal :=
  search value 17 (integerDigits value - 1)

/-! ### Layout -/

/-- Where the positional notation ends: the decimal point may stand at most `leading` zeros before
the first digit and at most `upTo` places after it. -/
structure Layout where
  leading : Int
  upTo : Int

def layout : Layout :=
  { leading := 6, upTo := 21 }

def zeros (count : Int) : List Char :=
  List.replicate count.toNat '0'

def withoutTrailingZeros (digits : List Char) : List Char :=
  (digits.reverse.dropWhile (· = '0')).reverse

/-- Digits with the decimal point after the first `point` of them. -/
def place (digits : List Char) (point : Int) : List Char :=
  if digits.length ≤ point ∧ point ≤ layout.upTo then
    digits ++ zeros (point - digits.length)
  else if 0 < point ∧ point ≤ layout.upTo then
    digits.take point.toNat ++ '.' :: digits.drop point.toNat
  else if -layout.leading < point ∧ point ≤ 0 then
    '0' :: '.' :: zeros (-point) ++ digits
  else
    let mantissa := match digits with
      | first :: second :: rest => first :: '.' :: second :: rest
      | short => short
    let exponent := point - 1
    let sign := if exponent < 0 then '-' else '+'
    mantissa ++ 'e' :: sign :: Nat.toDigits 10 exponent.natAbs

def text (decimal : Decimal) : List Char :=
  let digits := Nat.toDigits 10 decimal.significand
  place (withoutTrailingZeros digits) (digits.length + decimal.exponent)

end Decimal

/-- The text of a number in messages and answers. -/
def Number.text : Number → String
  | .absent => "undefined"
  | .null => "null"
  | .nan => "NaN"
  | .infinite true => "-Infinity"
  | .infinite false => "Infinity"
  | .finite value =>
    if value = 0 then "0"
    else if value < 0 then String.ofList ('-' :: (Decimal.shortest (-value)).text)
    else String.ofList (Decimal.shortest value).text

end EightBit
