/-
How a step can go. Fetching finds an instruction or a fault; the observer lets the instruction pass
or refuses it; one of its checks fails or none; the sink takes what it prints or not. The six
outcomes are the constructors of `Stepped`, each with the state it leaves, and every step is one of
them. Whatever holds of steps is read off from these six.
-/

import EightBit.Proofs.Law

namespace EightBit

variable {Host : Type}

/-! ### Fetching -/

/-- The address and the instruction a program counter points at, or the fault of finding none
there. -/
def Storage.fetched (storage : Storage) (pc : Number) : Except Fault (Nat × Opcode) :=
  match pc.index? storage.memory.size with
  | none => .error (.address pc .read (.ofNat storage.memory.size))
  | some address =>
    match Opcode.decode? (storage.memory.cell address) with
    | none =>
      .error (.unknownOpcode pc (.ofByte (storage.memory.cell address))
        storage.registers.toNumbers)
    | some opcode => .ok (address, opcode)

namespace Machine

def fetched (machine : Machine) : Except Fault (Nat × Opcode) :=
  machine.toStorage.fetched machine.pc

/-- Fetching at an integer program counter, by way of the cell there. -/
theorem fetched_ofNat {machine : Machine} {address : Nat} (pc : machine.pc = .ofNat address) :
    machine.fetched =
      if machine.memory.size ≤ address then
        .error (.address (.ofNat address) .read (.ofNat machine.memory.size))
      else
        match Opcode.decode? (machine.memory.cellOrZero address) with
        | none =>
          .error (.unknownOpcode (.ofNat address)
            (.ofByte (machine.memory.cellOrZero address)) machine.registers.toNumbers)
        | some opcode => .ok (address, opcode) := by
  unfold fetched Storage.fetched
  rw [pc, Number.index?_ofNat]
  by_cases inside : address < machine.memory.size
  · rw [dif_pos inside, if_neg (Nat.not_le.mpr inside)]
    simp only [← Memory.cellOrZero_eq_cell]
  · rw [dif_neg inside, if_pos (Nat.not_lt.mp inside)]

theorem fetched_eq_ok_iff (machine : Machine) (address : Nat) (opcode : Opcode) :
    machine.fetched = .ok (address, opcode) ↔
      machine.pc = .ofNat address ∧ address < machine.memory.size ∧
        Opcode.decode? (machine.memory.cellOrZero address) = some opcode := by
  constructor
  · intro found
    cases place : machine.pc.index? machine.memory.size with
    | none =>
      rw [fetched, Storage.fetched, place] at found
      cases found
    | some index =>
      have pc := Number.eq_ofNat_of_index? place
      rw [fetched_ofNat pc, if_neg (Nat.not_le.mpr index.isLt)] at found
      cases decoded : Opcode.decode? (machine.memory.cellOrZero index) with
      | none =>
        rw [decoded] at found
        cases found
      | some instruction =>
        rw [decoded] at found
        cases found
        exact ⟨pc, index.isLt, decoded⟩
  · rintro ⟨pc, inside, decoded⟩
    rw [fetched_ofNat pc, if_neg (Nat.not_le.mpr inside), decoded]

/-- The machine with the instruction at an address counted. -/
def counted (machine : Machine) (address : Nat) : Machine :=
  { machine with recent := machine.recent.record address, steps := machine.steps + 1 }

def stopped (machine : Machine) : Machine :=
  { machine with halted := true }

theorem fetched_stopped (machine : Machine) : machine.stopped.fetched = machine.fetched := rfl

theorem fetched_counted (machine : Machine) (address : Nat) :
    (machine.counted address).fetched = machine.fetched := rfl

/-- The machine after the instruction at an address. -/
def completed (machine : Machine) (address : Nat) (opcode : Opcode) : Machine where
  toStorage := opcode.effect machine.toStorage address
  pc := .ofNat (opcode.next machine.toStorage address)
  halted := opcode = .hlt
  steps := machine.steps + 1
  programLength := machine.programLength
  recent := machine.recent.record address

end Machine

namespace Action

theorem observe_bind {α : Type} (devices : Devices Host) (address : Nat) (byte : UInt8)
    (next : Action Host α) (session : Session Host)
    (read : session.machine.memory.cellOrZero address = byte) :
    (observe devices address byte >>= fun _ => next) session =
      match devices.inform session.machine address session.host with
      | .error thrown host => .error thrown { session with host }
      | .ok _ host => next { session with host } := by
  unfold observe Devices.inform
  cases devices.trace with
  | none => rfl
  | some trace =>
    rw [read]
    exact onHost_bind _ next session

theorem fetch_apply (devices : Devices Host) (session : Session Host) :
    fetch devices session =
      match session.machine.fetched with
      | .error fault => .error (.fault fault) session
      | .ok (address, opcode) =>
        match devices.inform session.machine address session.host with
        | .error thrown host => .error thrown { session with host }
        | .ok _ host =>
          execute devices address opcode
            { machine := session.machine.counted address, host } := by
  show (attempt (session.machine.memory.locate session.machine.pc .read) >>= _) session = _
  unfold Memory.locate Machine.fetched Storage.fetched
  cases session.machine.pc.index? session.machine.memory.size with
  | none => rfl
  | some address =>
    show (match Opcode.decode? (session.machine.memory.cell address) with
      | none => _
      | some opcode => _ : Action Host Flow) session = _
    simp only
    cases Opcode.decode? (session.machine.memory.cell address) with
    | none => rfl
    | some opcode =>
      exact observe_bind devices address _ _ session
        (session.machine.memory.cellOrZero_eq_cell address)

end Action

/-! ### What a step does -/

/-- The ways in which a step can go. A step that fails does so while fetching, in the observer, at a
check of its instruction, or in the sink; the instruction counts in the last two cases only. -/
inductive Stepped (devices : Devices Host) (session : Session Host) :
    EStateM.Result Thrown (Session Host) Flow → Prop
  | idle (halted : session.machine.halted = true) : Stepped devices session (.ok .halt session)
  | unfetched {fault : Fault} (running : session.machine.halted = false)
      (fetched : session.machine.fetched = .error fault) :
      Stepped devices session (.error (.fault fault) session.halt)
  | unobserved {address : Nat} {opcode : Opcode} {thrown : Thrown} {host : Host}
      (running : session.machine.halted = false)
      (fetched : session.machine.fetched = .ok (address, opcode))
      (informed : devices.inform session.machine address session.host = .error thrown host) :
      Stepped devices session (.error thrown { machine := session.machine.stopped, host })
  | unchecked {address : Nat} {opcode : Opcode} {fault : Fault} {host : Host}
      (running : session.machine.halted = false)
      (fetched : session.machine.fetched = .ok (address, opcode))
      (informed : devices.inform session.machine address session.host = .ok () host)
      (failed : firstFault (opcode.checks session.machine.toStorage address) = some fault) :
      Stepped devices session
        (.error (.fault fault) { machine := (session.machine.counted address).stopped, host })
  | unprinted {address : Nat} {opcode : Opcode} {thrown : Thrown} {host last : Host}
      (running : session.machine.halted = false)
      (fetched : session.machine.fetched = .ok (address, opcode))
      (informed : devices.inform session.machine address session.host = .ok () host)
      (passed : firstFault (opcode.checks session.machine.toStorage address) = none)
      (printed : devices.print (opcode.printed session.machine.toStorage address) host =
        .error thrown last) :
      Stepped devices session
        (.error thrown { machine := (session.machine.counted address).stopped, host := last })
  | completed {address : Nat} {opcode : Opcode} {host last : Host}
      (running : session.machine.halted = false)
      (fetched : session.machine.fetched = .ok (address, opcode))
      (informed : devices.inform session.machine address session.host = .ok () host)
      (passed : firstFault (opcode.checks session.machine.toStorage address) = none)
      (printed : devices.print (opcode.printed session.machine.toStorage address) host =
        .ok () last) :
      Stepped devices session
        (.ok opcode.flow { machine := session.machine.completed address opcode, host := last })

theorem step_of_fetch_error {devices : Devices Host} {session after : Session Host}
    {thrown : Thrown} (running : session.machine.halted = false)
    (failed : Action.fetch devices session = .error thrown after) :
    step devices session = .error thrown after.halt := by
  unfold step
  rw [if_neg (by rw [running]; exact Bool.false_ne_true), failed]

theorem step_of_fetch_ok {devices : Devices Host} {session after : Session Host} {flow : Flow}
    (running : session.machine.halted = false)
    (fetched : Action.fetch devices session = .ok flow after)
    (going : after.machine.halted = false) :
    step devices session =
      .ok flow { after with machine := { after.machine with halted := flow = .halt } } := by
  unfold step
  rw [if_neg (by rw [running]; exact Bool.false_ne_true), fetched]
  cases flow with
  | halt => rfl
  | proceed =>
    simp only [reduceCtorEq, decide_false]
    rw [← going]

theorem step_unfetched (devices : Devices Host) {session : Session Host} {fault : Fault}
    (running : session.machine.halted = false)
    (fetched : session.machine.fetched = .error fault) :
    step devices session = .error (.fault fault) session.halt := by
  refine step_of_fetch_error running ?_
  rw [Action.fetch_apply, fetched]

theorem step_unobserved {devices : Devices Host} {session : Session Host} {address : Nat}
    {opcode : Opcode} {thrown : Thrown} {host : Host} (running : session.machine.halted = false)
    (fetched : session.machine.fetched = .ok (address, opcode))
    (informed : devices.inform session.machine address session.host = .error thrown host) :
    step devices session = .error thrown { machine := session.machine.stopped, host } := by
  have failed : Action.fetch devices session = .error thrown { session with host } := by
    rw [Action.fetch_apply, fetched]
    simp only
    rw [informed]
  exact step_of_fetch_error running failed

/-- Past the observer, a fetch is the checks of the instruction and what it comes to behind them. -/
theorem fetch_of_informed {devices : Devices Host} {session : Session Host} {address : Nat}
    {opcode : Opcode} {host : Host}
    (fetched : session.machine.fetched = .ok (address, opcode))
    (informed : devices.inform session.machine address session.host = .ok () host) :
    Action.fetch devices session =
      guarded .fault (opcode.checks session.machine.toStorage address)
        { machine := session.machine.counted address, host }
        (Action.completion devices address opcode
          { machine := session.machine.counted address, host }) := by
  rw [Action.fetch_apply, fetched]
  simp only
  rw [informed]
  exact Action.execute_apply devices address opcode _

theorem step_unchecked {devices : Devices Host} {session : Session Host} {address : Nat}
    {opcode : Opcode} {fault : Fault} {host : Host} (running : session.machine.halted = false)
    (fetched : session.machine.fetched = .ok (address, opcode))
    (informed : devices.inform session.machine address session.host = .ok () host)
    (failed : firstFault (opcode.checks session.machine.toStorage address) = some fault) :
    step devices session =
      .error (.fault fault) { machine := (session.machine.counted address).stopped, host } := by
  have fetch : Action.fetch devices session =
      .error (.fault fault) { machine := session.machine.counted address, host } := by
    rw [fetch_of_informed fetched informed, guarded, failed]
  exact step_of_fetch_error running fetch

theorem step_unprinted {devices : Devices Host} {session : Session Host} {address : Nat}
    {opcode : Opcode} {thrown : Thrown} {host last : Host}
    (running : session.machine.halted = false)
    (fetched : session.machine.fetched = .ok (address, opcode))
    (informed : devices.inform session.machine address session.host = .ok () host)
    (passed : firstFault (opcode.checks session.machine.toStorage address) = none)
    (printed : devices.print (opcode.printed session.machine.toStorage address) host =
      .error thrown last) :
    step devices session =
      .error thrown { machine := (session.machine.counted address).stopped, host := last } := by
  have fetch : Action.fetch devices session =
      .error thrown { machine := session.machine.counted address, host := last } := by
    rw [fetch_of_informed fetched informed, guarded, passed]
    show (match devices.print (opcode.printed session.machine.toStorage address) host with
      | .error thrown host => _
      | .ok _ host => _ : EStateM.Result Thrown (Session Host) Flow) = _
    rw [printed]
  exact step_of_fetch_error running fetch

theorem step_completed {devices : Devices Host} {session : Session Host} {address : Nat}
    {opcode : Opcode} {host last : Host} (running : session.machine.halted = false)
    (fetched : session.machine.fetched = .ok (address, opcode))
    (informed : devices.inform session.machine address session.host = .ok () host)
    (passed : firstFault (opcode.checks session.machine.toStorage address) = none)
    (printed : devices.print (opcode.printed session.machine.toStorage address) host =
      .ok () last) :
    step devices session =
      .ok opcode.flow { machine := session.machine.completed address opcode, host := last } := by
  have fetch : Action.fetch devices session = .ok opcode.flow
      { Action.moved (Action.store { machine := session.machine.counted address, host }
        (opcode.effect session.machine.toStorage address))
        (opcode.next session.machine.toStorage address) with host := last } := by
    rw [fetch_of_informed fetched informed, guarded, passed]
    show (match devices.print (opcode.printed session.machine.toStorage address) host with
      | .error thrown host => _
      | .ok _ host => _ : EStateM.Result Thrown (Session Host) Flow) = _
    rw [printed]
    rfl
  rw [step_of_fetch_ok running fetch running]
  cases opcode <;> rfl

/-- Every step goes in one of these ways. -/
theorem stepped (devices : Devices Host) (session : Session Host) :
    Stepped devices session (step devices session) := by
  cases running : session.machine.halted with
  | true =>
    have idle : step devices session = .ok .halt session := if_pos running
    rw [idle]
    exact .idle running
  | false =>
    cases fetched : session.machine.fetched with
    | error fault =>
      rw [step_unfetched devices running fetched]
      exact .unfetched running fetched
    | ok instruction =>
      obtain ⟨address, opcode⟩ := instruction
      cases informed : devices.inform session.machine address session.host with
      | error thrown host =>
        rw [step_unobserved running fetched informed]
        exact .unobserved running fetched informed
      | ok _ host =>
        cases passed : firstFault (opcode.checks session.machine.toStorage address) with
        | some fault =>
          rw [step_unchecked running fetched informed passed]
          exact .unchecked running fetched informed passed
        | none =>
          cases printed : devices.print (opcode.printed session.machine.toStorage address) host with
          | error thrown last =>
            rw [step_unprinted running fetched informed passed printed]
            exact .unprinted running fetched informed passed printed
          | ok _ last =>
            rw [step_completed running fetched informed passed printed]
            exact .completed running fetched informed passed printed

/-- A running machine whose step returns has executed the instruction at its program counter. -/
theorem completed_of_step_ok {devices : Devices Host} {before after : Session Host} {flow : Flow}
    (running : before.machine.halted = false) (done : step devices before = .ok flow after) :
    ∃ address opcode, before.machine.fetched = .ok (address, opcode) ∧
      firstFault (opcode.checks before.machine.toStorage address) = none ∧
      flow = opcode.flow ∧ after.machine = before.machine.completed address opcode := by
  have outcome := stepped devices before
  rw [done] at outcome
  cases outcome with
  | idle halted =>
    rw [running] at halted
    cases halted
  | completed _ fetched _ passed => exact ⟨_, _, fetched, passed, rfl, rfl⟩

end EightBit
