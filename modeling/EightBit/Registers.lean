/-
The eight byte registers. Two of them have a role by convention only: R6 holds the comparison flags
and R7 the stack pointer. They are stored and addressed like the others.
-/

import EightBit.Fault

namespace EightBit

structure Registers where
  values : Vector UInt8 8
  deriving DecidableEq, Repr

namespace Registers

/-- All zero but the stack pointer, which starts at the last standard address. -/
def initial : Registers :=
  ⟨(Vector.replicate 8 0).set 7 255⟩

/-- The register an index names, or the fault of naming none. -/
def locate (index : Number) : Except Fault (Fin 8) :=
  match index.index? 8 with
  | some found => .ok found
  | none => .error (.register index)

def get (registers : Registers) (index : Number) : Except Fault UInt8 := do
  let found ← locate index
  return registers.values[found]

/-- Stores the low byte of a value. -/
def set (registers : Registers) (index value : Number) : Except Fault Registers := do
  let found ← locate index
  return ⟨registers.values.set found value.toByte⟩

/-! ### Registers with a role -/

def flags (registers : Registers) : UInt8 :=
  registers.values[6]

def setFlags (registers : Registers) (value : Number) : Registers :=
  ⟨registers.values.set 6 value.toByte⟩

def stackPointer (registers : Registers) : UInt8 :=
  registers.values[7]

def setStackPointer (registers : Registers) (value : Number) : Registers :=
  ⟨registers.values.set 7 value.toByte⟩

/-! ### Views -/

def toList (registers : Registers) : List UInt8 :=
  registers.values.toList

/-- The values as reports carry them. -/
def toNumbers (registers : Registers) : List Number :=
  registers.toList.map Number.ofByte

end Registers

end EightBit
