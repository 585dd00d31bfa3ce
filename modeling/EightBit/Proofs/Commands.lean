/-
What a host can do with a machine, as a type of commands and the histories made of them. A host
steps and runs the machine, resets it, loads programs, and may edit the program counter and the
storage directly; between two commands it may also exchange the devices. A halted machine stays
halted through every history without a reset and without a load.
-/

import EightBit.Machine.Run
import EightBit.Proofs.Stepped

namespace EightBit

variable {Host : Type}

/-- What a command returns. -/
inductive Answer where
  | done
  | flow (flow : Flow)
  | steps (count : Nat)
  | value (byte : UInt8)
  deriving DecidableEq, Repr

/-- The changes a host can make to storage. -/
inductive Edit where
  | setRegister (index value : Number)
  | setFlags (value : Number)
  | setStackPointer (value : Number)
  | resetRegisters
  | write (address value : Number)
  | place (data : List UInt8) (offset : Number)
  | clear
  | push (value : Number)
  | pop
  deriving DecidableEq, Repr

/-- What an edit does. What it changed before it failed stays changed. -/
def Edit.apply : Edit → EStateM Fault Storage Answer
  | .setRegister index value => do
    let registers ← MonadExcept.ofExcept ((← get).registers.set index value)
    modify fun storage => { storage with registers }
    return .done
  | .setFlags value => do
    modify fun storage => { storage with registers := storage.registers.setFlags value }
    return .done
  | .setStackPointer value => do
    modify fun storage => { storage with registers := storage.registers.setStackPointer value }
    return .done
  | .resetRegisters => do
    modify fun storage => { storage with registers := .initial }
    return .done
  | .write address value => do
    let memory ← MonadExcept.ofExcept ((← get).memory.write address value)
    modify fun storage => { storage with memory }
    return .done
  | .place data offset => do
    let memory ← MonadExcept.ofExcept ((← get).memory.load data offset)
    modify fun storage => { storage with memory }
    return .done
  | .clear => do
    modify fun storage => { storage with memory := storage.memory.clear }
    return .done
  | .push value => do
    Storage.push value
    return .done
  | .pop => do return .value (← Storage.pop)

/-- The operations a host can perform on a machine. A run is given turns enough to end. -/
inductive Command where
  | step
  | run (turns : Nat)
  | reset
  | load (program : List UInt8)
  | setPc (target : Number)
  | edit (edit : Edit)
  deriving DecidableEq, Repr

namespace Command

/-- Whether a command can set a halted machine going again. -/
def restarts : Command → Bool
  | .reset | .load _ => true
  | _ => false

def ofStep : EStateM.Result Thrown (Session Host) Flow →
    EStateM.Result Thrown (Session Host) Answer
  | .ok flow after => .ok (.flow flow) after
  | .error thrown after => .error thrown after

/-- A run that is over says how many steps it took. -/
def ofRun (before : Machine) :
    Course Host → Option (EStateM.Result Thrown (Session Host) Answer)
  | .halted after => some (.ok (.steps (stepsTaken before after.machine)) after)
  | .failed thrown after => some (.error thrown after)
  | .underway _ => none

def ofLoad (session : Session Host) :
    EStateM.Result Fault Machine Unit → EStateM.Result Thrown (Session Host) Answer
  | .ok _ machine => .ok .done { session with machine }
  | .error fault machine => .error (.fault fault) { session with machine }

/-- What a command does. `none` when it is a run that is not over within its turns. -/
def perform (devices : Devices Host) (session : Session Host) :
    Command → Option (EStateM.Result Thrown (Session Host) Answer)
  | .step => some (ofStep (EightBit.step devices session))
  | .run turns => ofRun session.machine (EightBit.run devices turns session)
  | .reset => some (.ok .done { session with machine := session.machine.reset })
  | .load program => some (ofLoad session (Machine.load program session.machine))
  | .setPc target =>
    some (.ok .done { session with machine := { session.machine with pc := target } })
  | .edit change => some (Action.onStorage change.apply session)

/-- The session after a history of commands, each with the devices then in place. -/
def performAll : List (Devices Host × Command) → Session Host → Option (Session Host)
  | [], session => some session
  | (devices, command) :: rest, session =>
    match command.perform devices session with
    | none => none
    | some result => performAll rest (stateLeft result)

/-- What holds at first, and after every command of a history if it held before, holds at the
end. -/
theorem performAll_induction {motive : Session Host → Prop}
    {history : List (Devices Host × Command)} {first last : Session Host}
    (kept : ∀ entry ∈ history, ∀ session result, entry.2.perform entry.1 session = some result →
      motive session → motive (stateLeft result))
    (initially : motive first) (performed : performAll history first = some last) :
    motive last := by
  induction history generalizing first with
  | nil =>
    cases performed
    exact initially
  | cons entry rest inductionHypothesis =>
    rw [performAll] at performed
    cases ended : entry.2.perform entry.1 first with
    | none =>
      rw [ended] at performed
      cases performed
    | some result =>
      rw [ended] at performed
      have next := kept entry List.mem_cons_self first result ended initially
      exact inductionHypothesis
        (fun entry member => kept entry (List.mem_cons_of_mem _ member)) next performed

/-! ### A halted machine stays halted -/

theorem step_of_halted {devices : Devices Host} {session : Session Host}
    (halted : session.machine.halted = true) :
    EightBit.step devices session = .ok .halt session :=
  if_pos halted

/-- A run of a halted machine is over after one turn, and has done nothing but mark a machine
without a program as halted once more. -/
theorem run_of_halted (devices : Devices Host) {session : Session Host} (turns : Nat)
    (halted : session.machine.halted = true) :
    EightBit.run devices turns session = .underway session ∨
      EightBit.run devices turns session = .halted session := by
  have still : session.halt = session := by
    obtain ⟨machine, host⟩ := session
    obtain ⟨storage, pc, marked, steps, length, recent⟩ := machine
    cases halted
    rfl
  unfold EightBit.run
  by_cases loaded : session.machine.isLoaded
  · rw [if_pos loaded]
    cases turns with
    | zero => exact Or.inl rfl
    | succ turns =>
      right
      rw [stepsUntilEnd, step_of_halted halted]
  · rw [if_neg loaded, still]
    exact Or.inr rfl

theorem perform_halted {devices : Devices Host} {session : Session Host} {command : Command}
    {result : EStateM.Result Thrown (Session Host) Answer} (lasting : command.restarts = false)
    (halted : session.machine.halted = true)
    (performed : command.perform devices session = some result) :
    (stateLeft result).machine.halted = true := by
  cases command with
  | step =>
    rw [perform, step_of_halted halted] at performed
    cases performed
    exact halted
  | run turns =>
    rw [perform] at performed
    rcases run_of_halted devices turns halted with underway | ended
    · rw [underway] at performed
      cases performed
    · rw [ended] at performed
      cases performed
      exact halted
  | reset => cases lasting
  | load program => cases lasting
  | setPc target =>
    cases performed
    exact halted
  | edit change =>
    rw [perform] at performed
    cases performed
    rw [Action.stateLeft_onStorage]
    exact halted

/-- No history without a reset and without a load sets a halted machine going. -/
theorem performAll_halted {history : List (Devices Host × Command)}
    {session reached : Session Host} (lasting : ∀ entry ∈ history, entry.2.restarts = false)
    (halted : session.machine.halted = true)
    (performed : performAll history session = some reached) :
    reached.machine.halted = true :=
  performAll_induction (motive := fun session : Session Host => session.machine.halted = true)
    (fun entry member _ _ ended marked => perform_halted (lasting entry member) marked ended)
    halted performed

end Command

/-! ### Loading -/

namespace Machine

/-- How a load goes on once memory is cleared and the program was placed there, or was not. -/
def afterPlacing (program : List UInt8) : Except Fault Memory → EStateM Fault Machine Unit
  | .error fault => throw fault
  | .ok memory => do
    modify fun machine => { machine with memory, programLength := program.length }
    modify reset

theorem load_apply (program : List UInt8) (machine : Machine) :
    load program machine =
      afterPlacing program (machine.memory.clear.load program (.ofNat 0))
        { machine with memory := machine.memory.clear } := by
  unfold afterPlacing
  rfl

/-- The machine with a program at the start of memory and nothing done yet. -/
def loaded (machine : Machine) (program : List UInt8) : Machine where
  memory := ⟨Memory.overlay machine.memory.clear.cells 0 program⟩
  registers := .initial
  pc := .ofNat 0
  halted := false
  steps := 0
  programLength := program.length
  recent := machine.recent.forget

theorem load_of_fits {machine : Machine} {program : List UInt8}
    (fits : program.length ≤ machine.memory.size) (small : program.length < 2 ^ 53) :
    load program machine = .ok () (machine.loaded program) := by
  have cleared : machine.memory.clear.size = machine.memory.size := Memory.size_blank _
  rw [load_apply, Memory.load_zero (cleared.symm ▸ fits) small]
  rfl

/-- A program that was accepted fits, and it is in place. -/
theorem eq_loaded_of_load {machine after : Machine} {program : List UInt8}
    (accepted : load program machine = .ok () after) :
    program.length ≤ machine.memory.size ∧ after = machine.loaded program := by
  rw [load_apply] at accepted
  cases placed : machine.memory.clear.load program (.ofNat 0) with
  | error fault =>
    rw [placed] at accepted
    cases accepted
  | ok memory =>
    obtain ⟨fits, rfl⟩ := Memory.eq_overlay_of_load placed
    rw [placed] at accepted
    cases accepted
    exact ⟨Nat.le_trans fits (Nat.le_of_eq (Memory.size_blank _)), rfl⟩

end Machine

end EightBit
