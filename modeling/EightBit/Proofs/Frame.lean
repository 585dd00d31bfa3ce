/-
What a step leaves alone. Only pushes and calls write to memory, each to the one cell below the
stack pointer, and no step changes the size of memory. Everything else in memory survives the step,
whatever instruction it executes and whether it succeeds or fails.
-/

import EightBit.Proofs.Stepped

namespace EightBit

variable {Host : Type}

/-! ### Instructions -/

/-- With its checks passed, a push has a cell below the stack pointer to write to. -/
theorem Storage.stackPointer_ne_zero_of_pushChecks {storage : Storage}
    (passed : ∀ check ∈ storage.pushChecks, check.fails = false) :
    storage.registers.stackPointer.toNat ≠ 0 := by
  intro zero
  have bottom : storage.registers.stackPointer = 0 := UInt8.toNat_inj.mp zero
  exact of_decide_eq_false (passed _ List.mem_cons_self) bottom

namespace Opcode

/-- The instructions that lay a value on the stack. -/
def writes : Opcode → Bool
  | .push | .call => true
  | _ => false

theorem pushChecks_of_checks {storage : Storage} {address : Nat} {opcode : Opcode}
    (writing : opcode.writes = true)
    (passed : firstFault (opcode.checks storage address) = none) :
    ∀ check ∈ storage.pushChecks, check.fails = false := by
  have all := (firstFault_eq_none_iff _).mp passed
  intro check member
  cases opcode with
  | push => exact all check (by simp [checks, member])
  | call => exact all check (by simp [checks, member])
  | hlt | ret | pop | prn | jmp | jeq | jne | ldi | add | sub | mul | cmp => cases writing

theorem memory_effect_of_not_writes (storage : Storage) (address : Nat) {opcode : Opcode}
    (reading : opcode.writes = false) :
    (opcode.effect storage address).memory = storage.memory := by
  cases opcode with
  | push | call => cases reading
  | hlt | ret | pop | prn | jmp | jeq | jne | ldi | add | sub | mul | cmp => rfl

theorem memory_effect_of_writes (storage : Storage) (address : Nat) {opcode : Opcode}
    (writing : opcode.writes = true) :
    ∃ value, (opcode.effect storage address).memory =
      storage.memory.assign (storage.registers.stackPointer.toNat - 1) value := by
  cases opcode with
  | push | call => exact ⟨_, rfl⟩
  | hlt | ret | pop | prn | jmp | jeq | jne | ldi | add | sub | mul | cmp => cases writing

theorem size_effect (storage : Storage) (address : Nat) (opcode : Opcode) :
    (opcode.effect storage address).memory.size = storage.memory.size := by
  cases writing : opcode.writes with
  | false => rw [memory_effect_of_not_writes storage address writing]
  | true =>
    obtain ⟨value, memory⟩ := memory_effect_of_writes storage address writing
    rw [memory, Memory.size_assign]

/-- An instruction whose checks pass changes no cell but the one below the stack pointer. -/
theorem cellOrZero_effect {storage : Storage} {address place : Nat} {opcode : Opcode}
    (passed : firstFault (opcode.checks storage address) = none)
    (other : place + 1 ≠ storage.registers.stackPointer.toNat) :
    (opcode.effect storage address).memory.cellOrZero place = storage.memory.cellOrZero place := by
  cases writing : opcode.writes with
  | false => rw [memory_effect_of_not_writes storage address writing]
  | true =>
    have above := Storage.stackPointer_ne_zero_of_pushChecks (pushChecks_of_checks writing passed)
    obtain ⟨value, memory⟩ := memory_effect_of_writes storage address writing
    rw [memory]
    exact Memory.cellOrZero_assign_of_ne _ value (by omega)

end Opcode

/-! ### Steps -/

theorem step_size (devices : Devices Host) (session : Session Host) :
    (stateLeft (step devices session)).machine.memory.size = session.machine.memory.size := by
  have outcome := stepped devices session
  generalize step devices session = result at outcome
  cases outcome with
  | idle | unfetched | unobserved | unchecked | unprinted => rfl
  | completed => exact Opcode.size_effect _ _ _

theorem step_cellOrZero (devices : Devices Host) (session : Session Host) (place : Nat)
    (other : place + 1 ≠ session.machine.registers.stackPointer.toNat) :
    (stateLeft (step devices session)).machine.memory.cellOrZero place =
      session.machine.memory.cellOrZero place := by
  have outcome := stepped devices session
  generalize step devices session = result at outcome
  cases outcome with
  | idle | unfetched | unobserved | unchecked | unprinted => rfl
  | completed _ _ _ passed => exact Opcode.cellOrZero_effect passed other

end EightBit
