/-
Hexadecimal digits can be read back. Two digits stand for a byte, and in a row of bytes the blanks
between them carry nothing, so the row is known from its digits.
-/

import EightBit.Text.Hex

namespace EightBit.Text

/-! ### Reading -/

/-- The value of a hexadecimal digit. -/
def digitValue? (digit : Char) : Option Nat :=
  if '0' ≤ digit ∧ digit ≤ '9' then some (digit.toNat - 48)
  else if 'A' ≤ digit ∧ digit ≤ 'F' then some (digit.toNat - 55)
  else none

/-- The byte that two digits stand for. -/
def byte? (high low : Char) : Option UInt8 := do
  let upper ← digitValue? high
  let lower ← digitValue? low
  return UInt8.ofNat (16 * upper + lower)

/-- The bytes that a row of digits stands for. -/
def bytes? : List Char → Option (List UInt8)
  | [] => some []
  | [_] => none
  | high :: low :: rest => do
    let byte ← byte? high low
    let bytes ← bytes? rest
    return byte :: bytes

/-! ### Reading what was written -/

theorem digitValue?_hexDigit {value : Nat} (small : value < 16) :
    digitValue? (hexDigit value) = some value := by
  have all : ∀ value < 16, digitValue? (hexDigit value) = some value := by decide
  exact all value small

theorem hexDigit_ne_blank {value : Nat} (small : value < 16) : hexDigit value ≠ ' ' := by
  have all : ∀ value < 16, hexDigit value ≠ ' ' := by decide
  exact all value small

theorem toList_hexByte (byte : UInt8) :
    (hexByte byte).toList = [hexDigit (byte.toNat / 16), hexDigit (byte.toNat % 16)] :=
  String.toList_ofList

theorem byte?_hexDigit (byte : UInt8) :
    byte? (hexDigit (byte.toNat / 16)) (hexDigit (byte.toNat % 16)) = some byte := by
  have upper : byte.toNat / 16 < 16 := Nat.div_lt_of_lt_mul byte.toNat_lt
  have lower : byte.toNat % 16 < 16 := Nat.mod_lt _ (by decide)
  simp only [byte?, digitValue?_hexDigit upper, digitValue?_hexDigit lower, Option.bind_eq_bind,
    Option.bind_some, Nat.div_add_mod, UInt8.ofNat_toNat]
  rfl

theorem filter_hexByte (byte : UInt8) :
    (hexByte byte).toList.filter (· ≠ ' ') = (hexByte byte).toList := by
  have upper : byte.toNat / 16 < 16 := Nat.div_lt_of_lt_mul byte.toNat_lt
  have lower : byte.toNat % 16 < 16 := Nat.mod_lt _ (by decide)
  simp [toList_hexByte, hexDigit_ne_blank upper, hexDigit_ne_blank lower]

theorem bytes?_flatMap_hexByte (bytes : List UInt8) :
    bytes? (bytes.flatMap fun byte => (hexByte byte).toList) = some bytes := by
  induction bytes with
  | nil => rfl
  | cons byte rest inductionHypothesis =>
    simp only [toList_hexByte] at inductionHypothesis
    simp only [List.flatMap_cons, toList_hexByte, List.cons_append, List.nil_append, bytes?,
      byte?_hexDigit, inductionHypothesis]
    rfl

/-- In a row of bytes a blank stands before each but the first. -/
theorem toList_hexBytes_cons (byte : UInt8) (rest : List UInt8) :
    (hexBytes (byte :: rest)).toList =
      (hexByte byte).toList ++ rest.flatMap fun next => ' ' :: (hexByte next).toList := by
  induction rest generalizing byte with
  | nil => simp [hexBytes]
  | cons next later inductionHypothesis =>
    have joined : hexBytes (byte :: next :: later) =
        hexByte byte ++ " " ++ hexBytes (next :: later) := String.intercalate_cons_cons
    simp [joined, inductionHypothesis]

theorem filter_hexBytes (bytes : List UInt8) :
    (hexBytes bytes).toList.filter (· ≠ ' ') =
      bytes.flatMap fun byte => (hexByte byte).toList := by
  cases bytes with
  | nil => rfl
  | cons byte rest =>
    have each (next : UInt8) : (' ' :: (hexByte next).toList).filter (· ≠ ' ') =
        (hexByte next).toList := by
      rw [List.filter_cons_of_neg (by simp), filter_hexByte]
    rw [toList_hexBytes_cons, List.filter_append, filter_hexByte, List.filter_flatMap]
    simp only [each, List.flatMap_cons]

theorem length_hexBytes_le (bytes : List UInt8) : (hexBytes bytes).length ≤ 3 * bytes.length := by
  cases bytes with
  | nil => decide
  | cons byte rest =>
    have behind : (rest.flatMap fun next => ' ' :: (hexByte next).toList).length =
        3 * rest.length := by
      simp [toList_hexByte, List.length_flatMap, List.map_const', Nat.mul_comm]
    rw [← String.length_toList, toList_hexBytes_cons, List.length_append, behind, toList_hexByte]
    simp only [List.length_cons, List.length_nil]
    omega

end EightBit.Text
