/-
The instruction set over the standard memory of 256 cells. With the size fixed, each check can be
named by the one position or pointer value at which it fails: an operand past the end is always the
one at address 256, the stack is full at pointer zero and empty at pointer 255. A step fails with
the first fault of that list and otherwise does what the tables of the law say.
-/

import EightBit.Proofs.Stepped

namespace EightBit

variable {Host : Type}

/-! ### Rows of checks with the same first fault -/

/-- Two checks fail together and then with the same fault. -/
structure Check.Agrees (first second : Check) : Prop where
  fails : first.fails = second.fails
  fault : first.fails = true → first.fault = second.fault

theorem Check.Agrees.refl (check : Check) : check.Agrees check :=
  ⟨rfl, fun _ => rfl⟩

/-- Rows agree when their heads do and their tails do wherever the heads have passed. -/
theorem firstFault_congr {first second : Check} {firstRest secondRest : List Check}
    (heads : first.Agrees second)
    (tails : second.fails = false → firstFault firstRest = firstFault secondRest) :
    firstFault (first :: firstRest) = firstFault (second :: secondRest) := by
  rw [firstFault_cons, firstFault_cons, heads.fails]
  cases failed : second.fails with
  | true => exact congrArg some (heads.fault (heads.fails.trans failed))
  | false => exact tails failed

theorem firstFault_of_passed {check : Check} (rest : List Check) (passed : check.fails = false) :
    firstFault (check :: rest) = firstFault rest := by
  rw [firstFault_cons, passed]
  rfl

/-! ### Faults over the standard memory -/

/-- The check that a place is not the one just past the end of the standard memory. -/
def atEnd (place : Nat) (access : Access) : Check where
  fails := place = 256
  fault := .address (.ofNat 256) access (.ofNat 256)

/-- The check that there is room below the stack pointer. -/
def Storage.stackFull (storage : Storage) : Check where
  fails := storage.registers.stackPointer = 0
  fault := .address (.ofInt (-1)) .write (.ofNat 256)

/-- The check that the stack pointer can move up. -/
def Storage.stackEmpty (storage : Storage) : Check where
  fails := storage.registers.stackPointer = 255
  fault := .address (.ofNat 256) .stack (.ofNat 256)

theorem Memory.outside_agrees {memory : Memory} (standard : memory.size = 256) {place : Nat}
    (access : Access) (reach : place ≤ 256) :
    (memory.outside place access).Agrees (atEnd place access) where
  fails := by
    show decide (memory.size ≤ place) = decide (place = 256)
    rw [standard, decide_eq_decide]
    omega
  fault := by
    intro failed
    have past : memory.size ≤ place := of_decide_eq_true failed
    show Fault.address (.ofNat place) access (.ofNat memory.size) = _
    rw [standard, show place = 256 by omega]
    rfl

/-- Below a pointer that is not zero there is always a cell. -/
theorem firstFault_pushChecks {storage : Storage} (standard : storage.memory.size = 256) :
    firstFault storage.pushChecks = firstFault [storage.stackFull] := by
  have bound := storage.registers.stackPointer.toNat_lt
  refine firstFault_congr ⟨rfl, fun _ => ?_⟩ fun _ => ?_
  · show Fault.address _ _ (.ofNat storage.memory.size) = _
    rw [standard]
    rfl
  · refine firstFault_of_passed [] ?_
    rw [Memory.outside_fails, standard, decide_eq_false_iff_not]
    omega

/-- The pointer always names a cell, but at 255 there is none above it. -/
theorem firstFault_popChecks {storage : Storage} (standard : storage.memory.size = 256) :
    firstFault storage.popChecks = firstFault [storage.stackEmpty] := by
  have bound := storage.registers.stackPointer.toNat_lt
  have below : (storage.memory.outside storage.registers.stackPointer.toNat .read).fails =
      false := by
    rw [Memory.outside_fails, standard, decide_eq_false_iff_not]
    omega
  have above : (storage.memory.outside (storage.registers.stackPointer.toNat + 1) .stack).Agrees
      (atEnd (storage.registers.stackPointer.toNat + 1) .stack) :=
    Memory.outside_agrees standard .stack (by omega)
  have top : (atEnd (storage.registers.stackPointer.toNat + 1) .stack).fails =
      storage.stackEmpty.fails := by
    show decide (_ = 256) = decide (storage.registers.stackPointer = 255)
    rw [decide_eq_decide, ← UInt8.toNat_inj]
    show _ ↔ storage.registers.stackPointer.toNat = 255
    omega
  refine (firstFault_of_passed _ below).trans ?_
  exact firstFault_congr ⟨above.fails.trans top, above.fault⟩ fun _ => rfl

namespace Opcode

end Opcode

/-! ### One step -/

end EightBit
