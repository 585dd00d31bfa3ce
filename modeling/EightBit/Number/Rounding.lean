/-
Rounding to the binary64 grid. Sums and differences of numbers are computed exactly and then moved
to the nearest representable value: fifty-three significant bits, a smallest step of 2^-1074, ties
to the even neighbour, and infinity from 2^1024 on.
-/

import EightBit.Number.Basic

namespace EightBit

/-- The rational `2 ^ exponent`. -/
def twoTo : Int → Rat
  | .ofNat exponent => ((1 <<< exponent : Nat) : Rat)
  | .negSucc exponent => mkRat 1 (1 <<< (exponent + 1))

/-- The nearest integer; halfway between two, the even one. -/
def roundHalfEven (value : Rat) : Int :=
  let below := value.floor
  let excess := value - below
  if excess < mkRat 1 2 then below
  else if mkRat 1 2 < excess then below + 1
  else if below % 2 = 0 then below
  else below + 1

/-- For a positive value, the greatest exponent whose power of two does not exceed it. The lengths
of numerator and denominator leave only two candidates. -/
def binaryExponent (value : Rat) : Int :=
  let estimate : Int := value.num.natAbs.log2 - value.den.log2
  if twoTo estimate ≤ value then estimate else estimate - 1

/-- The exponent of the spacing of representable values around a value. -/
def spacingExponent (value : Rat) : Int :=
  max (binaryExponent value.abs - 52) (-1074)

namespace Number

/-- The representable number nearest to a rational. -/
def nearest (value : Rat) : Number :=
  let unit := twoTo (spacingExponent value)
  let rounded := roundHalfEven (value / unit) * unit
  if twoTo 1024 ≤ rounded.abs then .infinite (value < 0) else .finite rounded

/-- Rounded addition. Opposite infinities have no sum. -/
protected def add (left right : Number) : Number :=
  match left.counted, right.counted with
  | .finite left, .finite right => nearest (left + right)
  | .infinite left, .infinite right => if left = right then .infinite left else .nan
  | .infinite negative, .finite _ => .infinite negative
  | .finite _, .infinite negative => .infinite negative
  | _, _ => .nan

protected def neg (number : Number) : Number :=
  match number.counted with
  | .finite value => .finite (-value)
  | .infinite negative => .infinite !negative
  | _ => .nan

/-- Rounded subtraction. -/
protected def sub (left right : Number) : Number :=
  left.add right.neg

end Number

end EightBit
