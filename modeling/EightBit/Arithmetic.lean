/-
The arithmetic unit: three operations on numbers with a byte result, and the comparison that sets
the flags.
-/

import EightBit.Fault

namespace EightBit

inductive Operation where
  | add
  | subtract
  | multiply
  deriving DecidableEq, Repr

namespace Operation

/-- The operation a selector names. -/
def ofSelector? : String → Option Operation
  | "ADD" => some .add
  | "SUB" => some .subtract
  | "MUL" => some .multiply
  | _ => none

/-- The low byte of the result. Sums and differences are rounded as numbers first; a product is
taken of 32-bit integers and kept to 32 bits. -/
def apply : Operation → Number → Number → UInt8
  | .add, left, right => (left.add right).toByte
  | .subtract, left, right => (left.sub right).toByte
  | .multiply, left, right => lowByte ((left.toInt32 * right.toInt32).bmod 4294967296)

/-- Applies the operation that a selector names. -/
def compute (selector : String) (left right : Number) : Except Fault UInt8 :=
  match ofSelector? selector with
  | some operation => .ok (operation.apply left right)
  | none => .error (.unsupportedOperation selector)

end Operation

/-! ### Comparison flags

Exactly one of the three is set by a comparison. -/

def equalFlag : UInt8 :=
  1

def greaterFlag : UInt8 :=
  2

def lessFlag : UInt8 :=
  4

/-- The flag of a comparison. What is not a number compares as less. -/
def compareFlag (left right : Number) : UInt8 :=
  if left.same right then equalFlag
  else if right.lt left then greaterFlag
  else lessFlag

end EightBit
