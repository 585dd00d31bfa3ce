/-
Integers among the numbers. Up to 2^53 every integer lies on the binary64 grid, so sums and
differences that stay there are exact; an integer is stored by its residue modulo 256; and its order
and its use as an index are those of the integers. The arithmetic unit is therefore arithmetic
modulo 256, on bytes and on all integers up to 2^52.
-/

import EightBit.Arithmetic
import Mathlib.Algebra.Group.Nat.Defs

namespace EightBit

/-! ### The grid contains the integers -/

theorem twoTo_natCast (exponent : Nat) : twoTo exponent = ((2 ^ exponent : Nat) : Rat) := by
  show (((1 <<< exponent : Nat)) : Rat) = _
  rw [Nat.one_shiftLeft]

theorem twoTo_neg_mul (exponent : Nat) :
    twoTo (-(exponent : Int)) * ((2 ^ exponent : Nat) : Rat) = 1 := by
  cases exponent with
  | zero =>
    show twoTo (0 : Nat) * ((2 ^ 0 : Nat) : Rat) = 1
    rw [twoTo_natCast]
    exact Rat.mul_one 1
  | succ below =>
    have positive : (0 : Rat) < ((2 ^ (below + 1) : Nat) : Rat) :=
      Rat.natCast_pos.mpr (Nat.two_pow_pos (below + 1))
    show mkRat 1 (1 <<< (below + 1)) * _ = 1
    rw [Nat.one_shiftLeft, Rat.mkRat_eq_div]
    exact Rat.div_mul_cancel (Rat.ne_of_gt positive)

theorem roundHalfEven_intCast (value : Int) : roundHalfEven value = value := by
  unfold roundHalfEven
  simp only [Rat.floor_intCast, Rat.sub_self]
  rw [if_pos (by decide)]

theorem abs_intCast (value : Int) : (value : Rat).abs = (value.natAbs : Rat) := by
  rcases Int.natAbs_eq value with same | opposite
  · rw [Rat.abs_of_nonneg (Rat.intCast_nonneg.mpr (by omega))]
    exact congrArg Int.cast same
  · rw [Rat.abs_of_nonpos (Rat.intCast_nonpos.mpr (by omega)), ← Rat.intCast_neg]
    exact congrArg Int.cast (by omega : -value = (value.natAbs : Int))

theorem abs_intCast_lt_twoTo (value : Int) (exponent : Nat) (large : 53 ≤ exponent)
    (small : value.natAbs < 2 ^ 53) : (value : Rat).abs < twoTo exponent := by
  rw [abs_intCast, twoTo_natCast]
  exact Rat.natCast_lt_natCast.mpr
    (Nat.lt_of_lt_of_le small (Nat.pow_le_pow_right (by decide) large))

theorem binaryExponent_natCast {value : Nat} (nonzero : value ≠ 0) :
    binaryExponent value = value.log2 := by
  have estimate : ((value : Rat).num.natAbs.log2 : Int) - ((value : Rat).den.log2 : Int) =
      value.log2 := by
    rw [Rat.num_natCast, Rat.den_natCast, Int.natAbs_natCast]
    exact Int.sub_zero _
  have attained : twoTo value.log2 ≤ value := by
    rw [twoTo_natCast]
    exact Rat.natCast_le_natCast.mpr (Nat.log2_self_le nonzero)
  unfold binaryExponent
  simp only [estimate]
  exact if_pos attained

theorem spacingExponent_intCast_nonpos (value : Int) (small : value.natAbs < 2 ^ 53) :
    spacingExponent value ≤ 0 := by
  by_cases zero : value = 0
  · rw [zero]
    decide +kernel
  · have nonzero : value.natAbs ≠ 0 := by omega
    have digits : value.natAbs.log2 < 53 := (Nat.log2_lt nonzero).mpr small
    unfold spacingExponent
    rw [abs_intCast, binaryExponent_natCast nonzero]
    omega

namespace Number

/-- A whole number of grid spacings is its own nearest number. -/
theorem nearest_of_multiple (value : Rat) (count : Int)
    (multiple : value / twoTo (spacingExponent value) = count)
    (nonzero : twoTo (spacingExponent value) ≠ 0) (small : value.abs < twoTo 1024) :
    nearest value = .finite value := by
  have restored : (count : Rat) * twoTo (spacingExponent value) = value := by
    rw [← multiple, Rat.div_mul_cancel nonzero]
  unfold nearest
  simp only [multiple, roundHalfEven_intCast, restored]
  rw [if_neg (Rat.not_le.mpr small)]

/-- Integers below 2^53 are not rounded: the spacing there is one over a power of two. -/
theorem nearest_intCast_of_lt (value : Int) (small : value.natAbs < 2 ^ 53) :
    nearest value = ofInt value := by
  have fine := spacingExponent_intCast_nonpos value small
  obtain ⟨depth, exponent⟩ := Int.eq_ofNat_of_zero_le (a := -spacingExponent value) (by omega)
  have unit := twoTo_neg_mul depth
  rw [show -(depth : Int) = spacingExponent value by omega] at unit
  have inverse : (twoTo (spacingExponent value))⁻¹ = ((2 ^ depth : Nat) : Rat) :=
    Rat.inv_eq_of_mul_eq_one unit
  apply nearest_of_multiple value (value * (2 ^ depth : Nat))
  · rw [Rat.div_def, inverse, Rat.intCast_mul]
    rfl
  · intro zero
    rw [zero, Rat.zero_mul] at unit
    exact absurd unit (by decide)
  · exact abs_intCast_lt_twoTo value 1024 (by decide) small

/-- Nor is the bound itself, where the spacing is two. -/
theorem nearest_intCast (value : Int) (small : value.natAbs ≤ 2 ^ 53) :
    nearest value = ofInt value := by
  rcases Nat.lt_or_eq_of_le small with below | bound
  · exact nearest_intCast_of_lt value below
  · obtain rfl | rfl : value = 9007199254740992 ∨ value = -9007199254740992 := by omega
    · decide +kernel
    · decide +kernel

theorem add_ofInt (left right : Int) (small : (left + right).natAbs ≤ 2 ^ 53) :
    (ofInt left).add (ofInt right) = ofInt (left + right) := by
  show nearest ((left : Rat) + (right : Rat)) = _
  rw [← Rat.intCast_add]
  exact nearest_intCast (left + right) small

theorem sub_ofInt (left right : Int) (small : (left - right).natAbs ≤ 2 ^ 53) :
    (ofInt left).sub (ofInt right) = ofInt (left - right) :=
  add_ofInt left (-right) small

/-! ### Bytes, order and indices -/

/-- Cutting an integer down to 32 bits leaves its residue modulo 256. -/
theorem bmod_emod (value : Int) : value.bmod 4294967296 % 256 = value % 256 := by
  rw [Int.bmod_def]
  split <;> omega

theorem toByte_ofInt (value : Int) : (ofInt value).toByte = lowByte value := by
  unfold toByte toInt32 lowByte
  rw [truncate_ofInt, bmod_emod]

theorem toByte_ofNat (value : Nat) : (Number.ofNat value).toByte = UInt8.ofNat value :=
  (toByte_ofInt value).trans (lowByte_natCast value)

theorem lt_ofInt (left right : Int) : (ofInt left).lt (ofInt right) = decide (left < right) := by
  show decide ((left : Rat) < (right : Rat)) = _
  rw [decide_eq_decide, Rat.intCast_lt_intCast]

theorem lt_ofNat (left right : Nat) :
    (Number.ofNat left).lt (.ofNat right) = decide (left < right) :=
  (lt_ofInt left right).trans (decide_eq_decide.mpr Int.ofNat_lt)

theorem min_ofInt (left right : Int) : (ofInt left).min (ofInt right) = ofInt (min left right) := by
  show (if (ofInt left).lt (ofInt right) then ofInt left else ofInt right) = _
  simp only [lt_ofInt, decide_eq_true_eq]
  split
  · rw [Int.min_eq_left (by omega)]
  · rw [Int.min_eq_right (by omega)]

theorem min_ofNat (left right : Nat) :
    (Number.ofNat left).min (.ofNat right) = .ofNat (min left right) :=
  (min_ofInt left right).trans (congrArg ofInt (by omega))

theorem max_ofInt (left right : Int) : (ofInt left).max (ofInt right) = ofInt (max left right) := by
  show (if (ofInt left).lt (ofInt right) then ofInt right else ofInt left) = _
  simp only [lt_ofInt, decide_eq_true_eq]
  split
  · rw [Int.max_eq_right (by omega)]
  · rw [Int.max_eq_left (by omega)]

theorem le_ofNat (left right : Nat) :
    (Number.ofNat left).le (.ofNat right) = decide (left ≤ right) := by
  have same : (Number.ofNat left).same (.ofNat right) = decide (left = right) :=
    decide_eq_decide.mpr ofNat_inj
  show ((Number.ofNat left).lt (.ofNat right) || (Number.ofNat left).same (.ofNat right)) = _
  rw [lt_ofNat, same, ← Bool.decide_or, decide_eq_decide]
  omega

theorem ofByte_inj {left right : UInt8} : ofByte left = ofByte right ↔ left = right :=
  ofNat_inj.trans UInt8.toNat_inj

/-- A number that names an index is that index. -/
theorem eq_ofNat_of_index? {number : Number} {bound : Nat} {index : Fin bound}
    (found : number.index? bound = some index) : number = .ofNat index := by
  cases number with
  | finite value =>
    by_cases inside : value.den = 1 ∧ 0 ≤ value.num ∧ value.num.toNat < bound
    · rw [index?, dif_pos inside] at found
      cases found
      have whole : value = ((value.num : Int) : Rat) := Rat.ext rfl inside.1
      show finite value = ofInt (value.num.toNat : Int)
      rw [Int.toNat_of_nonneg inside.2.1]
      exact congrArg finite whole
    · rw [index?, dif_neg inside] at found
      cases found
  | absent | null | nan | infinite => cases found

theorem index?_of_neg (bound : Nat) {value : Int} (negative : value < 0) :
    (ofInt value).index? bound = none :=
  dif_neg fun inside => absurd inside.2.1 (Int.not_le.mpr negative)

end Number

/-! ### The arithmetic unit -/

theorem toNat_lowByte (value : Int) : (lowByte value).toNat = (value % 256).toNat := by
  show (value % 256).toNat % 256 = (value % 256).toNat
  omega

/-- Integers have the same low byte exactly if they are congruent modulo 256. -/
theorem lowByte_eq_iff {left right : Int} :
    lowByte left = lowByte right ↔ left % 256 = right % 256 := by
  rw [← UInt8.toNat_inj, toNat_lowByte, toNat_lowByte]
  omega

namespace Operation

/-- The operation on integers, where nothing is cut off. -/
def onIntegers : Operation → Int → Int → Int
  | .add, left, right => left + right
  | .subtract, left, right => left - right
  | .multiply, left, right => left * right

/-- The unit gives the low byte of what the operation gives on integers. -/
theorem apply_ofInt (operation : Operation) {left right : Int} (leftSmall : left.natAbs ≤ 2 ^ 52)
    (rightSmall : right.natAbs ≤ 2 ^ 52) :
    operation.apply (.ofInt left) (.ofInt right) = lowByte (operation.onIntegers left right) := by
  cases operation with
  | add => rw [apply, onIntegers, Number.add_ofInt _ _ (by omega), Number.toByte_ofInt]
  | subtract => rw [apply, onIntegers, Number.sub_ofInt _ _ (by omega), Number.toByte_ofInt]
  | multiply =>
    rw [apply, onIntegers, Number.toInt32, Number.toInt32, Number.truncate_ofInt,
      Number.truncate_ofInt, lowByte_eq_iff, Number.bmod_emod, Int.mul_emod, Number.bmod_emod,
      Number.bmod_emod, ← Int.mul_emod]

theorem apply_ofByte (operation : Operation) (left right : UInt8) :
    operation.apply (.ofByte left) (.ofByte right) =
      lowByte (operation.onIntegers left.toNat right.toNat) := by
  have leftSmall := left.toNat_lt
  have rightSmall := right.toNat_lt
  exact operation.apply_ofInt (by omega) (by omega)

theorem apply_add_ofByte (left right : UInt8) :
    add.apply (.ofByte left) (.ofByte right) = left + right := by
  rw [apply_ofByte, ← UInt8.toNat_inj, toNat_lowByte, UInt8.toNat_add, onIntegers]
  omega

theorem apply_subtract_ofByte (left right : UInt8) :
    subtract.apply (.ofByte left) (.ofByte right) = left - right := by
  have rightSmall := right.toNat_lt
  rw [apply_ofByte, ← UInt8.toNat_inj, toNat_lowByte, UInt8.toNat_sub, onIntegers]
  omega

theorem apply_multiply_ofByte (left right : UInt8) :
    multiply.apply (.ofByte left) (.ofByte right) = left * right := by
  rw [apply_ofByte, ← UInt8.toNat_inj, toNat_lowByte, UInt8.toNat_mul, onIntegers,
    ← Int.natCast_mul]
  omega

end Operation

theorem compareFlag_ofByte (left right : UInt8) :
    compareFlag (.ofByte left) (.ofByte right) =
      if left = right then equalFlag else if right < left then greaterFlag else lessFlag := by
  have same : (Number.ofByte left).same (.ofByte right) = decide (left = right) := by
    show (decide (Number.ofByte left ≠ .nan) && decide (Number.ofByte left = .ofByte right)) = _
    rw [decide_eq_true (show Number.ofByte left ≠ .nan by intro equal; cases equal),
      Bool.true_and, decide_eq_decide]
    exact Number.ofByte_inj
  have order : (Number.ofByte right).lt (.ofByte left) = decide (right < left) :=
    (Number.lt_ofNat right.toNat left.toNat).trans (decide_eq_decide.mpr UInt8.lt_iff_toNat_lt.symm)
  unfold compareFlag
  rw [same, order]
  simp only [decide_eq_true_eq]

end EightBit
