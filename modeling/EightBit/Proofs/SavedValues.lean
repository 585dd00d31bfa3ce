/-
Saved values come back. A call or a push lays a value in the cell just below the stack pointer. As
long as the pointer stays below where it was, no step can write to that cell again, because a step
writes only one cell further down than the pointer it starts from. So when the pointer is back at
the cell, a return goes to the saved address and a pop takes the saved value, whatever ran between.
-/

import EightBit.Proofs.Frame
import Mathlib.Logic.Relation

namespace EightBit

variable {Host : Type}

/-! ### Saving -/

namespace Machine

/-- The machine is going to execute an instruction at an address. -/
structure AboutTo (machine : Machine) (opcode : Opcode) (address : Nat) : Prop where
  running : machine.halted = false
  fetched : machine.fetched = .ok (address, opcode)

theorem aboutTo_iff (machine : Machine) (opcode : Opcode) (address : Nat) :
    machine.AboutTo opcode address ↔
      machine.halted = false ∧ machine.pc = .ofNat address ∧ address < machine.memory.size ∧
        Opcode.decode? (machine.memory.cellOrZero address) = some opcode := by
  rw [← machine.fetched_eq_ok_iff address opcode]
  exact ⟨fun about => ⟨about.running, about.fetched⟩, fun ⟨running, fetched⟩ => ⟨running, fetched⟩⟩

instance (machine : Machine) (opcode : Opcode) (address : Nat) :
    Decidable (machine.AboutTo opcode address) :=
  decidable_of_iff _ (machine.aboutTo_iff opcode address).symm

abbrev pointer (machine : Machine) : Nat :=
  machine.registers.stackPointer.toNat

end Machine

/-- The number an instruction lays on the stack: a call its return address, a push the value of its
register. -/
def Opcode.saved (storage : Storage) (address : Nat) : Opcode → Option Nat
  | .call => some (address + 2)
  | .push => some (storage.named address 1).toNat
  | _ => none

/-- What holds while a value is kept in the cell below a level: the cell still has it, and the
pointer has not come back above the cell. -/
structure Keeps (level value : Nat) (machine : Machine) : Prop where
  standard : machine.memory.size = 256
  below : machine.pointer < level
  cell : (machine.memory.cellOrZero (level - 1)).toNat = value

/-- A successful step does what the table says of the instruction it was about to execute. -/
theorem machine_of_step_ok {devices : Devices Host} {before after : Session Host} {flow : Flow}
    {opcode : Opcode} {address : Nat} (about : before.machine.AboutTo opcode address)
    (done : step devices before = .ok flow after) :
    after.machine = before.machine.completed address opcode ∧
      firstFault (opcode.checks before.machine.toStorage address) = none := by
  obtain ⟨place, instruction, fetched, passed, -, machine⟩ :=
    completed_of_step_ok about.running done
  rw [about.fetched] at fetched
  cases fetched
  exact ⟨machine, passed⟩

theorem Opcode.effect_of_saved {storage : Storage} {address value : Nat} {opcode : Opcode}
    (standard : storage.memory.size = 256)
    (passed : firstFault (opcode.checks storage address) = none)
    (saved : opcode.saved storage address = some value) :
    opcode.writes = true ∧
      ∃ byte, opcode.effect storage address = storage.pushed byte ∧ byte.toNat = value := by
  cases opcode with
  | call =>
    cases saved
    -- the check of the return address leaves it small enough for a byte
    have inside : (storage.memory.outside (address + 2) .stack).fails = false :=
      (firstFault_eq_none_iff _).mp passed _ (by simp [checks])
    rw [Memory.outside_fails, standard, decide_eq_false_iff_not] at inside
    refine ⟨rfl, UInt8.ofNat (address + 2), rfl, ?_⟩
    rw [UInt8.toNat_ofNat']
    omega
  | push =>
    cases saved
    exact ⟨rfl, _, rfl, rfl⟩
  | hlt | ret | pop | prn | jmp | jeq | jne | ldi | add | sub | mul | cmp => cases saved

theorem keeps_of_saved {devices : Devices Host} {before after : Session Host} {flow : Flow}
    {opcode : Opcode} {address value : Nat} (standard : before.machine.memory.size = 256)
    (about : before.machine.AboutTo opcode address)
    (saved : opcode.saved before.machine.toStorage address = some value)
    (done : step devices before = .ok flow after) :
    Keeps before.machine.pointer value after.machine := by
  obtain ⟨machine, passed⟩ := machine_of_step_ok about done
  obtain ⟨writing, byte, effect, number⟩ := Opcode.effect_of_saved standard passed saved
  have above : before.machine.pointer ≠ 0 :=
    Storage.stackPointer_ne_zero_of_pushChecks (Opcode.pushChecks_of_checks writing passed)
  have bound : before.machine.pointer < 256 := before.machine.registers.stackPointer.toNat_lt
  have storage : after.machine.toStorage = before.machine.toStorage.pushed byte := by
    rw [machine]
    exact effect
  refine ⟨?_, ?_, ?_⟩
  · rw [storage]
    exact (Memory.size_assign _ _ _).trans standard
  · show after.machine.toStorage.registers.stackPointer.toNat < _
    rw [storage, Storage.stackPointer_pushed, UInt8.toNat_sub]
    show (2 ^ 8 - 1 + before.machine.pointer) % 2 ^ 8 < before.machine.pointer
    omega
  · rw [storage]
    show ((Memory.assign _ (before.machine.pointer - 1) byte).cellOrZero _).toNat = value
    rw [Memory.cellOrZero_assign_self _ byte (by omega), number]

/-! ### Keeping -/

/-- One successful step that leaves the stack pointer below a level. -/
def StepsBelow (devices : Devices Host) (level : Nat) (before after : Session Host) : Prop :=
  (∃ flow, step devices before = .ok flow after) ∧ after.machine.pointer < level

/-- The cell is out of reach of a step that starts below the level: what it writes lies lower. -/
theorem Keeps.of_step {devices : Devices Host} {before after : Session Host} {level value : Nat}
    (keeps : Keeps level value before.machine) (stepped : StepsBelow devices level before after) :
    Keeps level value after.machine := by
  obtain ⟨⟨flow, done⟩, below⟩ := stepped
  have bound : before.machine.registers.stackPointer.toNat < level := keeps.below
  have size := step_size devices before
  have cell := step_cellOrZero devices before (level - 1) (by omega)
  rw [done] at size cell
  refine ⟨size.trans keeps.standard, below, ?_⟩
  exact (congrArg UInt8.toNat cell).trans keeps.cell

theorem Keeps.of_run {devices : Devices Host} {first last : Session Host} {level value : Nat}
    (keeps : Keeps level value first.machine)
    (run : Relation.ReflTransGen (StepsBelow devices level) first last) :
    Keeps level value last.machine := by
  induction run with
  | refl => exact keeps
  | tail _ stepped inductionHypothesis => exact inductionHypothesis.of_step stepped

/-! ### Coming back -/

/-- With the pointer back at the cell, the value is on top of the stack and can be taken off. -/
theorem Keeps.popChecks {level value : Nat} {machine : Machine} (keeps : Keeps level value machine)
    (bound : level < 256) (back : machine.pointer + 1 = level) :
    (∀ check ∈ machine.toStorage.popChecks, check.fails = false) ∧
      machine.toStorage.top.toNat = value ∧
      machine.toStorage.popped.registers.stackPointer.toNat = level := by
  have standard := keeps.standard
  refine ⟨?_, ?_, ?_⟩
  · show ∀ check ∈ [machine.memory.outside machine.pointer .read,
      machine.memory.outside (machine.pointer + 1) .stack], check.fails = false
    simp only [List.mem_cons, List.not_mem_nil, or_false, forall_eq_or_imp, forall_eq,
      Memory.outside_fails, decide_eq_false_iff_not]
    omega
  · rw [← keeps.cell, ← back]
    rfl
  · rw [Storage.stackPointer_popped, UInt8.toNat_add]
    show (machine.pointer + 1) % 2 ^ 8 = level
    omega

/-- An instruction that prints nothing succeeds once the observer and its checks let it pass. -/
theorem step_of_passed {devices : Devices Host} {session : Session Host} {opcode : Opcode}
    {address : Nat} {host : Host} (about : session.machine.AboutTo opcode address)
    (informed : devices.inform session.machine address session.host = .ok () host)
    (passed : ∀ check ∈ opcode.checks session.machine.toStorage address, check.fails = false)
    (silent : opcode.printed session.machine.toStorage address = none) :
    step devices session =
      .ok opcode.flow { machine := session.machine.completed address opcode, host } := by
  refine step_completed about.running about.fetched informed
    ((firstFault_eq_none_iff _).mpr passed) ?_
  rw [silent]
  rfl

/-- A value saved by a call or a push is still there after any run below it: with the pointer back
at its cell, a return goes to it and a pop takes it, and the pointer is where it was before. -/
theorem saved_value_returns (devices : Devices Host) (before saving last : Session Host)
    (flow : Flow) (opcode : Opcode) (address value : Nat)
    (standard : before.machine.memory.size = 256)
    (about : before.machine.AboutTo opcode address)
    (saves : opcode.saved before.machine.toStorage address = some value)
    (done : step devices before = .ok flow saving)
    (run : Relation.ReflTransGen (StepsBelow devices before.machine.pointer) saving last)
    (back : last.machine.pointer + 1 = before.machine.pointer) :
    (∀ place host, last.machine.AboutTo .ret place →
      devices.inform last.machine place last.host = .ok () host →
        ∃ after, step devices last = .ok .proceed after ∧
          after.machine.pc = .ofNat value ∧
          after.machine.pointer = before.machine.pointer) ∧
    ∀ place host, last.machine.AboutTo .pop place →
      devices.inform last.machine place last.host = .ok () host →
      place + 1 < 256 → last.machine.toStorage.operand place 1 < 8 →
        ∃ after, step devices last = .ok .proceed after ∧
          (after.machine.registers.value (last.machine.toStorage.operand place 1)).toNat = value ∧
          (last.machine.toStorage.operand place 1 ≠ 7 →
            after.machine.pointer = before.machine.pointer) := by
  have keeps : Keeps before.machine.pointer value last.machine :=
    (keeps_of_saved standard about saves done).of_run run
  have bound : before.machine.pointer < 256 := before.machine.registers.stackPointer.toNat_lt
  obtain ⟨passed, top, pointer⟩ := keeps.popChecks bound back
  constructor
  · intro place host returning informed
    refine ⟨_, step_of_passed returning informed passed rfl, ?_, pointer⟩
    exact congrArg Number.ofNat top
  · intro place host popping informed inside named
    have complete : ∀ check ∈ Opcode.pop.checks last.machine.toStorage place,
        check.fails = false := by
      show ∀ check ∈ _ :: _ :: last.machine.toStorage.popChecks, check.fails = false
      rw [List.forall_mem_cons, List.forall_mem_cons]
      refine ⟨?_, ?_, passed⟩
      · show decide (last.machine.memory.size ≤ place + 1) = false
        rw [keeps.standard, decide_eq_false_iff_not]
        omega
      · exact decide_eq_false (UInt8.not_le.mpr named)
    refine ⟨_, step_of_passed popping informed complete rfl, ?_, fun other => ?_⟩
    · rw [← top]
      exact congrArg UInt8.toNat (Registers.value_assign_self _ _ _ named)
    · rw [← pointer]
      exact congrArg UInt8.toNat (Registers.value_assign_of_ne _ _ other)

/-- The session after an instruction, with nobody watching. -/
def Session.past (session : Session Unit) (address : Nat) (opcode : Opcode) : Session Unit where
  machine := session.machine.completed address opcode
  host := ()

/-- A call to address four, where the first register is pushed, popped into another one and the
callee returns. -/
def nestedCall : Session Unit where
  machine :=
    { Machine.create ⟨Memory.overlay (Array.replicate 256 0) 0
        [0x50, 0, 0, 0, 0x45, 0, 0x46, 1, 0x11]⟩ with
      registers := Registers.initial.assign 0 4 }
  host := ()

/-- The callee has used the cell below the return address, and still returns behind the call. -/
theorem nestedCall_returns :
    ∃ after, step silentDevices (((nestedCall.past 0 .call).past 4 .push).past 6 .pop) =
        .ok .proceed after ∧
      after.machine.pc = .ofNat 2 ∧ after.machine.pointer = nestedCall.machine.pointer := by
  have called : nestedCall.machine.AboutTo .call 0 := by decide +kernel
  have pushing : (nestedCall.past 0 .call).machine.AboutTo .push 4 := by decide +kernel
  have popping : ((nestedCall.past 0 .call).past 4 .push).machine.AboutTo .pop 6 := by
    decide +kernel
  have entered : step silentDevices nestedCall = .ok .proceed (nestedCall.past 0 .call) :=
    step_of_passed called rfl (by decide +kernel) rfl
  have pushed : step silentDevices (nestedCall.past 0 .call) =
      .ok .proceed ((nestedCall.past 0 .call).past 4 .push) :=
    step_of_passed pushing rfl (by decide +kernel) rfl
  have popped : step silentDevices ((nestedCall.past 0 .call).past 4 .push) =
      .ok .proceed (((nestedCall.past 0 .call).past 4 .push).past 6 .pop) :=
    step_of_passed popping rfl (by decide +kernel) rfl
  have inside : Relation.ReflTransGen (StepsBelow silentDevices nestedCall.machine.pointer)
      (nestedCall.past 0 .call) (((nestedCall.past 0 .call).past 4 .push).past 6 .pop) :=
    .head ⟨⟨_, pushed⟩, by decide +kernel⟩ (.single ⟨⟨_, popped⟩, by decide +kernel⟩)
  exact (saved_value_returns silentDevices nestedCall _ _ .proceed .call 0 2
    (by decide +kernel) called rfl entered inside (by decide +kernel)).1 8 ()
    (by decide +kernel) rfl

end EightBit
