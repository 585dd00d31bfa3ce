/-
The numbers with which a host addresses the machine. Addresses, register indices, step limits and
stored values all arrive as numbers, and any of them may be fractional, infinite, no number at all,
or not even given. This file holds the type, its order, and the two ways a number becomes a machine
quantity: as an index below a bound, and as the byte in its low eight bits.
-/

namespace EightBit

/-- A rational value, one of the two infinities, or no number; or nothing, either left out or said
expressly. Zero has no sign. -/
inductive Number where
  | absent
  | null
  | nan
  | infinite (negative : Bool)
  | finite (value : Rat)
  deriving DecidableEq, Repr, Inhabited

namespace Number

/-! ### Integers are numbers -/

def ofInt (value : Int) : Number :=
  .finite value

protected def ofNat (value : Nat) : Number :=
  ofInt value

def ofByte (byte : UInt8) : Number :=
  .ofNat byte.toNat

theorem ofNat_inj {left right : Nat} : Number.ofNat left = Number.ofNat right ↔ left = right := by
  constructor
  · intro equal
    have values : ((left : Int) : Rat) = ((right : Int) : Rat) := Number.finite.inj equal
    have numerators : (left : Int) = right := congrArg Rat.num values
    exact Int.ofNat.inj numerators
  · exact congrArg Number.ofNat

/-- What counts in sums and comparisons: what was left out counts as no number, an express nothing
as zero. -/
def counted : Number → Number
  | .absent => .nan
  | .null => .finite 0
  | number => number

/-! ### Order

Every comparison with what is not a number fails, so `le` is not the negation of `lt`. -/

protected def lt (left right : Number) : Bool :=
  match left.counted, right.counted with
  | .finite left, .finite right => left < right
  | .infinite negative, .finite _ => negative
  | .finite _, .infinite negative => !negative
  | .infinite left, .infinite right => left && !right
  | _, _ => false

/-- Equality of what was given: unlike identity, it fails on what is not a number. -/
def same (left right : Number) : Bool :=
  left ≠ .nan && left = right

protected def le (left right : Number) : Bool :=
  left.lt right || left.counted.same right.counted

/-- The lesser of two numbers, or no number when either is none. -/
protected def min (left right : Number) : Number :=
  if left.counted = .nan ∨ right.counted = .nan then .nan
  else if left.lt right then left.counted else right.counted

/-- The greater of two numbers, or no number when either is none. -/
protected def max (left right : Number) : Number :=
  if left.counted = .nan ∨ right.counted = .nan then .nan
  else if left.lt right then right.counted else left.counted

/-! ### Machine quantities -/

/-- The index a number names below a bound: it must be an integer in range. -/
def index? (bound : Nat) : Number → Option (Fin bound)
  | .finite value =>
    if inside : value.den = 1 ∧ 0 ≤ value.num ∧ value.num.toNat < bound then
      some ⟨value.num.toNat, inside.2.2⟩
    else none
  | _ => none

theorem index?_ofNat (bound value : Nat) :
    (Number.ofNat value).index? bound =
      if inside : value < bound then some ⟨value, inside⟩ else none := by
  by_cases inside : value < bound
  · rw [dif_pos inside]
    exact dif_pos ⟨rfl, Int.natCast_nonneg value, inside⟩
  · rw [dif_neg inside]
    exact dif_neg fun within => inside within.2.2

/-- The integer part, rounding toward zero. What has no integer part counts as zero. -/
def truncate : Number → Int
  | .finite value => value.num.tdiv value.den
  | _ => 0

theorem truncate_ofInt (value : Int) : (ofInt value).truncate = value :=
  Int.tdiv_one value

/-- The signed 32-bit integer congruent to the integer part. -/
def toInt32 (number : Number) : Int :=
  number.truncate.bmod 4294967296

end Number

/-- The low eight bits of an integer in two's complement. -/
def lowByte (value : Int) : UInt8 :=
  UInt8.ofNat (value % 256).toNat

theorem lowByte_natCast (value : Nat) : lowByte value = UInt8.ofNat value := by
  apply UInt8.toNat_inj.mp
  show ((value : Int) % 256).toNat % 256 = value % 256
  omega

/-- The byte a number is stored as: the low eight bits of its 32-bit integer. -/
def Number.toByte (number : Number) : UInt8 :=
  lowByte number.toInt32

/-- A byte is stored as itself. -/
theorem Number.toByte_ofByte (byte : UInt8) : (Number.ofByte byte).toByte = byte := by
  have small : byte.toNat < 256 := byte.toNat_lt
  have reduced : (Number.ofByte byte).toInt32 = byte.toNat := by
    show ((ofInt byte.toNat).truncate).bmod 4294967296 = byte.toNat
    rw [truncate_ofInt]
    rw [Int.bmod_eq_of_le] <;> omega
  rw [Number.toByte, reduced, lowByte_natCast]
  exact UInt8.ofNat_toNat

end EightBit
