/-
A failing step is atomic. Whatever stops a step, be it a fault of its own or something the observer
or the sink raised, memory, registers and program counter are as before; the machine is halted, and
the step counts exactly when its instruction had got past the observer. From then on the machine
does nothing until it is reset or loaded. Steps and accesses to the stack keep their state when they
fail, so this is owed to the order in which they check and change.
-/

import EightBit.Proofs.Commands
import EightBit.Proofs.Recents

namespace EightBit

variable {Host : Type}

/-- Whether a step gets past the observer: there is an instruction at the program counter, and the
observer returns when it is told of it. Then only an operand, a register, the stack, a return
address or the sink can still stop it. -/
def PassesObserver (devices : Devices Host) (session : Session Host) : Prop :=
  ∃ address opcode host, session.machine.fetched = .ok (address, opcode) ∧
    devices.inform session.machine address session.host = .ok () host

theorem not_passesObserver_of_unfetched {devices : Devices Host} {session : Session Host}
    {fault : Fault} (fetched : session.machine.fetched = .error fault) :
    ¬ PassesObserver devices session := by
  rintro ⟨address, opcode, host, found, -⟩
  rw [fetched] at found
  cases found

theorem not_passesObserver_of_unobserved {devices : Devices Host} {session : Session Host}
    {address : Nat} {opcode : Opcode} {thrown : Thrown} {host : Host}
    (fetched : session.machine.fetched = .ok (address, opcode))
    (informed : devices.inform session.machine address session.host = .error thrown host) :
    ¬ PassesObserver devices session := by
  rintro ⟨place, instruction, returned, found, passed⟩
  rw [fetched] at found
  cases found
  rw [informed] at passed
  cases passed

/-- The machine a failed step leaves: halted, and all else as before, but for the count of the
instruction when it got past the observer. -/
theorem machine_of_step_error {devices : Devices Host} {session after : Session Host}
    {thrown : Thrown} (failed : step devices session = .error thrown after) :
    (¬ PassesObserver devices session ∧ after.machine = session.machine.stopped) ∨
      ∃ address, PassesObserver devices session ∧ session.machine.pc = .ofNat address ∧
        after.machine = (session.machine.counted address).stopped := by
  have outcome := stepped devices session
  rw [failed] at outcome
  cases outcome with
  | unfetched _ fetched => exact Or.inl ⟨not_passesObserver_of_unfetched fetched, rfl⟩
  | unobserved _ fetched informed =>
    exact Or.inl ⟨not_passesObserver_of_unobserved fetched informed, rfl⟩
  | unchecked _ fetched informed =>
    have place := ((session.machine.fetched_eq_ok_iff _ _).mp fetched).1
    exact Or.inr ⟨_, ⟨_, _, _, fetched, informed⟩, place, rfl⟩
  | unprinted _ fetched informed =>
    have place := ((session.machine.fetched_eq_ok_iff _ _).mp fetched).1
    exact Or.inr ⟨_, ⟨_, _, _, fetched, informed⟩, place, rfl⟩

theorem storage_of_step_error {devices : Devices Host} {session after : Session Host}
    {thrown : Thrown} (failed : step devices session = .error thrown after) :
    after.machine.toStorage = session.machine.toStorage ∧
      after.machine.pc = session.machine.pc := by
  rcases machine_of_step_error failed with ⟨-, machine⟩ | ⟨address, -, -, machine⟩
  · rw [machine]
    exact ⟨rfl, rfl⟩
  · rw [machine]
    exact ⟨rfl, rfl⟩

/-- What atomicity asks of the session a failed step leaves. -/
structure FailedAtomically (devices : Devices Host) (before after : Session Host) : Prop where
  memory : after.machine.memory = before.machine.memory
  registers : after.machine.registers = before.machine.registers
  pc : after.machine.pc = before.machine.pc
  halted : after.machine.halted = true
  /-- Past the observer the step counts, and the log of addresses grows by the one at the program
  counter: it is found in the slot of the new entry, and no other slot has changed. -/
  counted : PassesObserver devices before →
    after.machine.steps = before.machine.steps + 1 ∧
      after.machine.recent.recorded = before.machine.recent.recorded + 1 ∧
      ∃ address, before.machine.pc = .ofNat address ∧
        ∀ slot : Nat, after.machine.recent.slots[slot]? =
          if before.machine.recent.recorded % 32 = slot then some address
          else before.machine.recent.slots[slot]?
  /-- Stopped while fetching, decoding or in the observer, it does not. -/
  uncounted : ¬ PassesObserver devices before →
    after.machine.steps = before.machine.steps ∧ after.machine.recent = before.machine.recent
  /-- Every later step does nothing, until a reset or a load. -/
  lasting : ∀ (history : List (Devices Host × Command)) (reached : Session Host),
    (∀ entry ∈ history, entry.2.restarts = false) →
      Command.performAll history after = some reached →
        ∀ later : Devices Host, step later reached = .ok .halt reached

theorem step_error_atomic (devices : Devices Host) (session after : Session Host)
    (thrown : Thrown) (failed : step devices session = .error thrown after) :
    FailedAtomically devices session after := by
  have lasting (halted : after.machine.halted = true) (history : List (Devices Host × Command))
      (reached : Session Host) (quiet : ∀ entry ∈ history, entry.2.restarts = false)
      (performed : Command.performAll history after = some reached) (later : Devices Host) :
      step later reached = .ok .halt reached :=
    Command.step_of_halted (Command.performAll_halted quiet halted performed)
  have origin := machine_of_step_error failed
  obtain ⟨machine, host⟩ := after
  rcases origin with ⟨stopped, rfl⟩ | ⟨address, passed, place, rfl⟩
  · exact {
      memory := rfl
      registers := rfl
      pc := rfl
      halted := rfl
      counted := fun passed => absurd passed stopped
      uncounted := fun _ => ⟨rfl, rfl⟩
      lasting := lasting rfl }
  · exact {
      memory := rfl
      registers := rfl
      pc := rfl
      halted := rfl
      counted := fun _ => ⟨rfl, rfl, address, place, Recent.getElem?_record _ address⟩
      uncounted := fun stopped => absurd passed stopped
      lasting := lasting rfl }

/-- A machine of four cells, about to execute at address one. -/
def fourCells (opcode operand pointer : UInt8) : Session Unit where
  machine :=
    { Machine.create ⟨#[0, opcode, operand, 0]⟩ with
      registers := Registers.initial.assign 7 pointer
      pc := .ofNat 1 }
  host := ()

/-- A pop into the register nine, which does not exist, and a push below address zero. Both fail
after they were counted, in the first slot of the log; neither memory nor the stack pointer has
moved. -/
theorem failing_stack_instructions :
    (∃ after, step silentDevices (fourCells 0x46 9 1) =
        .error (.fault (.register (.ofByte 9))) after ∧
      FailedAtomically silentDevices (fourCells 0x46 9 1) after ∧
      after.machine.registers.stackPointer = 1 ∧ after.machine.recent.recorded = 1 ∧
      after.machine.recent.slots[0]? = some 1) ∧
    ∃ after, step silentDevices (fourCells 0x45 0 0) =
        .error (.fault (.address (.ofInt (-1)) .write (.ofNat 4))) after ∧
      FailedAtomically silentDevices (fourCells 0x45 0 0) after ∧
      after.machine.memory.cells = #[0, 0x45, 0, 0] ∧
      after.machine.registers.stackPointer = 0 ∧ after.machine.recent.recorded = 1 ∧
      after.machine.recent.slots[0]? = some 1 :=
  ⟨⟨_, rfl, step_error_atomic silentDevices _ _ _ rfl, rfl, rfl, rfl⟩,
    ⟨_, rfl, step_error_atomic silentDevices _ _ _ rfl, rfl, rfl, rfl, rfl⟩⟩

end EightBit
