/-
The stack: a region of memory that grows downward under the stack pointer. The pointer names the
value pushed last; at the last address of memory the stack is empty. Its operations change storage
one part after the other, and what they changed before they failed stays changed.
-/

import EightBit.Memory
import EightBit.Registers

namespace EightBit

/-- What instructions work on: memory and registers. -/
structure Storage where
  memory : Memory
  registers : Registers
  deriving DecidableEq, Repr

namespace Storage

/-- Stores a value below the stack pointer and then moves the pointer to it. The store fails below
address zero. -/
def push (value : Number) : EStateM Fault Storage Unit := do
  let { memory, registers } ← get
  let target := Number.ofInt ((registers.stackPointer.toNat : Int) - 1)
  let memory ← MonadExcept.ofExcept (memory.write target value)
  modify fun storage => { storage with memory }
  modify fun storage => { storage with registers := storage.registers.setStackPointer target }

/-- Takes the value under the stack pointer and then moves the pointer up. The pointer must stay
inside memory, so the last cell can never be taken. -/
def pop : EStateM Fault Storage UInt8 := do
  let { memory, registers } ← get
  let value ← MonadExcept.ofExcept (memory.read (.ofByte registers.stackPointer))
  let above := Number.ofNat (registers.stackPointer.toNat + 1)
  let _ ← MonadExcept.ofExcept (memory.locate above .stack)
  modify fun storage => { storage with registers := storage.registers.setStackPointer above }
  return value

/-- How many values the stack holds. It is negative when the pointer is outside memory. -/
def depth (storage : Storage) : Int :=
  (storage.memory.size : Int) - 1 - storage.registers.stackPointer.toNat

end Storage

end EightBit
