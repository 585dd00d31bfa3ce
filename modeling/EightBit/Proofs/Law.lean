/-
The law of the machine. A step is described here by tables and not by a sequence of accesses: which
checks an instruction makes and in what order, what it leaves in storage, where execution goes on,
and what is printed. The main result is that a step does what the tables say. It follows that an
instruction changes storage only after its last check has passed, whatever the order of accesses by
which it is carried out.
-/

import EightBit.Machine.Step
import EightBit.Proofs.Storage

namespace EightBit

variable {Host : Type}

/-! ### The tables -/

namespace Storage

/-- The byte `offset` places after the opcode at an address, zero outside memory. -/
def operand (storage : Storage) (address offset : Nat) : UInt8 :=
  storage.memory.cellOrZero (address + offset)

/-- The value of the register that an operand names. -/
def named (storage : Storage) (address offset : Nat) : UInt8 :=
  storage.registers.value (storage.operand address offset)

def assign (storage : Storage) (index value : UInt8) : Storage :=
  { storage with registers := storage.registers.assign index value }

/-- The check that an operand lies inside memory. -/
def cutOff (storage : Storage) (address offset : Nat) : Check :=
  storage.memory.outside (address + offset) .read

/-- The check that an operand names a register. -/
def unnamed (storage : Storage) (address offset : Nat) : Check :=
  Registers.unnamed (storage.operand address offset)

end Storage

namespace Opcode

/-- The checks of an instruction, in the order in which it makes them. -/
def checks (storage : Storage) (address : Nat) : Opcode → List Check
  | .hlt => []
  | .ret => storage.popChecks
  | .push => storage.cutOff address 1 :: storage.unnamed address 1 :: storage.pushChecks
  | .pop => storage.cutOff address 1 :: storage.unnamed address 1 :: storage.popChecks
  | .prn | .jmp | .jeq | .jne => [storage.cutOff address 1, storage.unnamed address 1]
  | .call =>
    storage.cutOff address 1 :: storage.unnamed address 1 ::
      storage.memory.outside (address + 2) .stack :: storage.pushChecks
  | .ldi => [storage.cutOff address 1, storage.cutOff address 2, storage.unnamed address 1]
  | .add | .sub | .mul =>
    [storage.cutOff address 1, storage.cutOff address 2, storage.unnamed address 1,
      storage.unnamed address 2]
  | .cmp =>
    [storage.cutOff address 1, storage.unnamed address 1, storage.cutOff address 2,
      storage.unnamed address 2]

/-- The flag that tells how two bytes compare. -/
def comparison (left right : UInt8) : UInt8 :=
  if left = right then 1 else if right < left then 2 else 4

/-- What an instruction leaves in storage. -/
def effect (storage : Storage) (address : Nat) : Opcode → Storage
  | .hlt | .prn | .jmp | .jeq | .jne => storage
  | .ret => storage.popped
  | .push => storage.pushed (storage.named address 1)
  | .pop => storage.popped.assign (storage.operand address 1) storage.top
  | .call => storage.pushed (UInt8.ofNat (address + 2))
  | .ldi => storage.assign (storage.operand address 1) (storage.operand address 2)
  | .add =>
    storage.assign (storage.operand address 1) (storage.named address 1 + storage.named address 2)
  | .sub =>
    storage.assign (storage.operand address 1) (storage.named address 1 - storage.named address 2)
  | .mul =>
    storage.assign (storage.operand address 1) (storage.named address 1 * storage.named address 2)
  | .cmp => storage.assign 6 (comparison (storage.named address 1) (storage.named address 2))

/-- Where execution goes on after an instruction. -/
def next (storage : Storage) (address : Nat) : Opcode → Nat
  | .hlt => address + 1
  | .ret => storage.top.toNat
  | .push | .pop | .prn => address + 2
  | .call | .jmp => (storage.named address 1).toNat
  | .jeq =>
    if storage.registers.value 6 &&& 1 ≠ 0 then (storage.named address 1).toNat else address + 2
  | .jne =>
    if storage.registers.value 6 &&& 1 = 0 then (storage.named address 1).toNat else address + 2
  | .ldi | .add | .sub | .mul | .cmp => address + 3

/-- The value an instruction prints, if it prints. -/
def printed (storage : Storage) (address : Nat) : Opcode → Option UInt8
  | .prn => some (storage.named address 1)
  | _ => none

def flow : Opcode → Flow
  | .hlt => .halt
  | _ => .proceed

end Opcode

/-- Hands a printed value to the sink, as a decimal line. -/
def Devices.print (devices : Devices Host) : Option UInt8 → EStateM Thrown Host Unit
  | none => pure ()
  | some value => devices.output value.toNat.repr

/-- Tells the observer, if there is one, of an instruction about to execute. -/
def Devices.inform (devices : Devices Host) (machine : Machine) (address : Nat) :
    EStateM Thrown Host Unit :=
  match devices.trace with
  | none => pure ()
  | some trace =>
    trace machine (Action.observation machine address (machine.memory.cellOrZero address))

/-- No observer, and a sink that drops every line. -/
def silentDevices : Devices Unit where
  trace := none
  output _ := pure ()

/-! ### Actions behind checks -/

namespace Action

theorem attempt_checked {α : Type} (checks : List Check) (value : α) (session : Session Host) :
    attempt (checked checks value) session = guarded .fault checks session (.ok value session) := by
  unfold checked guarded
  cases firstFault checks <;> rfl

/-! ### What each access does -/

theorem operand_apply (address offset : Nat) (session : Session Host) :
    operand address offset session =
      guarded .fault [session.machine.cutOff address offset] session
        (.ok (session.machine.operand address offset) session) := by
  show attempt (session.machine.memory.read (.ofNat (address + offset))) session = _
  rw [Memory.read_eq_checked]
  exact attempt_checked _ _ session

theorem register_apply (index : UInt8) (session : Session Host) :
    register index session =
      guarded .fault [Registers.unnamed index] session
        (.ok (session.machine.registers.value index) session) := by
  show attempt (session.machine.registers.get (.ofByte index)) session = _
  rw [Registers.get_eq_checked]
  exact attempt_checked _ _ session

theorem setRegister_apply (index value : UInt8) (session : Session Host) :
    setRegister index value session =
      guarded .fault [Registers.unnamed index] session
        (.ok () (store session (session.machine.assign index value))) := by
  show (attempt (session.machine.registers.set (.ofByte index) (.ofByte value)) >>=
    fun registers => update fun machine => { machine with registers }) session = _
  rw [Registers.set_eq_checked]
  exact bind_of_guarded (attempt_checked _ _ session)

/-- Whether it returned or failed, a computation on storage changes nothing but storage. -/
theorem stateLeft_onStorage {α : Type} (action : EStateM Fault Storage α) (session : Session Host) :
    stateLeft (onStorage action session) =
      store session (stateLeft (action session.machine.toStorage)) := by
  unfold onStorage
  cases action session.machine.toStorage <;> rfl

/-- A computation on storage that is behind checks is so on the session. -/
theorem onStorage_of_guarded {α : Type} {action : EStateM Fault Storage α} {checks : List Check}
    {session : Session Host} {value : α} {storage : Storage}
    (first : action session.machine.toStorage =
      guarded id checks session.machine.toStorage (.ok value storage)) :
    onStorage action session =
      guarded .fault checks session (.ok value (store session storage)) := by
  unfold onStorage
  rw [first]
  unfold guarded
  cases firstFault checks <;> rfl

theorem push_apply (value : Number) (session : Session Host) :
    push value session =
      guarded .fault session.machine.pushChecks session
        (.ok () (store session (session.machine.pushed value.toByte))) :=
  onStorage_of_guarded (Storage.push_apply value session.machine.toStorage)

theorem pop_apply (session : Session Host) :
    pop session =
      guarded .fault session.machine.popChecks session
        (.ok session.machine.top (store session session.machine.popped)) :=
  onStorage_of_guarded (Storage.pop_apply session.machine.toStorage)

/-- Going through the two accesses of an operand that names a register. -/
theorem named_bind {α : Type} (address offset : Nat) (next : UInt8 → Action Host α)
    (session : Session Host) :
    (operand address offset >>= fun index => register index >>= next) session =
      guarded .fault [session.machine.cutOff address offset, session.machine.unnamed address offset]
        session (next (session.machine.named address offset) session) := by
  rw [bind_of_guarded (operand_apply address offset session),
    bind_of_guarded (register_apply _ session)]
  exact (guarded_append [_] [_] session _).symm

/-! ### What each instruction does -/

/-- The session with its program counter moved. -/
def moved (session : Session Host) (target : Nat) : Session Host :=
  { session with machine := { session.machine with pc := .ofNat target } }

/-- The destination is checked twice, and the second check can no longer fail. -/
theorem arithmetic_apply (operation : Operation) (address : Nat) (opcode : Opcode)
    (session : Session Host) :
    arithmetic operation address opcode session =
      guarded .fault [session.machine.cutOff address 1, session.machine.cutOff address 2,
          session.machine.unnamed address 1, session.machine.unnamed address 2] session
        (.ok .proceed (moved (store session (session.machine.assign
          (session.machine.operand address 1)
          (operation.apply (.ofByte (session.machine.named address 1))
            (.ofByte (session.machine.named address 2))))) (address + opcode.length))) := by
  unfold arithmetic
  rw [bind_of_guarded (operand_apply address 1 session),
    bind_of_guarded (operand_apply address 2 session),
    bind_of_guarded (register_apply _ session), bind_of_guarded (register_apply _ session),
    ← guarded_append, ← guarded_append, ← guarded_append]
  refine guarded_congr _ session fun passed => ?_
  have named : (Registers.unnamed (session.machine.operand address 1)).fails = false :=
    passed _ (by simp)
  rw [bind_of_guarded (setRegister_apply _ _ session), guarded_passed _ _ named]
  rfl

theorem branch_apply (taken : Bool) (address : Nat) (opcode : Opcode) (session : Session Host) :
    branch taken address opcode session =
      guarded .fault [session.machine.cutOff address 1, session.machine.unnamed address 1] session
        (.ok .proceed (moved session
          (if taken then (session.machine.named address 1).toNat
            else address + opcode.length))) := by
  unfold branch
  rw [named_bind]
  cases taken <;> rfl

theorem onHost_bind {α : Type} (action : EStateM Thrown Host Unit) (next : Action Host α)
    (session : Session Host) :
    (onHost action >>= fun _ => next) session =
      match action session.host with
      | .error thrown host => .error thrown { session with host }
      | .ok _ host => next { session with host } := by
  show EStateM.bind (onHost action) (fun _ => next) session = _
  unfold EStateM.bind onHost
  cases action session.host <;> rfl

/-- What an instruction comes to when all its checks pass. The sink may still refuse what is
printed, and then storage and program counter stay as they are. -/
def completion (devices : Devices Host) (address : Nat) (opcode : Opcode)
    (session : Session Host) : EStateM.Result Thrown (Session Host) Flow :=
  let storage := session.machine.toStorage
  match devices.print (opcode.printed storage address) session.host with
  | .error thrown host => .error thrown { session with host }
  | .ok _ host =>
    .ok opcode.flow
      { moved (store session (opcode.effect storage address)) (opcode.next storage address) with
        host }

/-- Every instruction is its row of checks and what it comes to behind them. -/
theorem execute_apply (devices : Devices Host) (address : Nat) (opcode : Opcode)
    (session : Session Host) :
    execute devices address opcode session =
      guarded .fault (opcode.checks session.machine.toStorage address) session
        (completion devices address opcode session) := by
  cases opcode with
  | hlt => rfl
  | ret =>
    unfold execute
    simp only
    rw [bind_of_guarded (pop_apply session)]
    rfl
  | push =>
    unfold execute
    simp only
    rw [named_bind, bind_of_guarded (push_apply _ session), Number.toByte_ofByte, ← guarded_append]
    rfl
  | pop =>
    unfold execute
    simp only
    rw [bind_of_guarded (operand_apply address 1 session),
      bind_of_guarded (register_apply _ session), bind_of_guarded (pop_apply session),
      ← guarded_append, ← guarded_append]
    refine guarded_congr _ session fun passed => ?_
    have named : (Registers.unnamed (session.machine.operand address 1)).fails = false :=
      passed _ (by simp)
    rw [bind_of_guarded (setRegister_apply _ _ _), guarded_passed _ _ named]
    rfl
  | prn =>
    unfold execute
    simp only
    rw [named_bind, onHost_bind]
    rfl
  | call =>
    unfold execute
    simp only
    rw [named_bind]
    refine Eq.trans ?_ (guarded_append [_, _] (_ :: _) session _).symm
    refine guarded_congr _ session fun _ => ?_
    rw [guarded_cons]
    show (if session.machine.memory.size ≤ address + 2 then _ else _ : Action Host Flow) session = _
    by_cases past : session.machine.memory.size ≤ address + 2
    · rw [if_pos past, if_pos (by simpa using past)]
      rfl
    · rw [if_neg past, if_neg (by simpa using past),
        bind_of_guarded (push_apply _ session), Number.toByte_ofNat]
      rfl
  | jmp => exact branch_apply true address .jmp session
  | jeq =>
    refine (branch_apply _ address .jeq session).trans ?_
    simp only [decide_eq_true_eq]
    rfl
  | jne =>
    refine (branch_apply _ address .jne session).trans ?_
    simp only [Bool.not_eq_true', decide_eq_false_iff_not, ne_eq, Decidable.not_not]
    rfl
  | ldi =>
    unfold execute
    simp only
    rw [bind_of_guarded (operand_apply address 1 session),
      bind_of_guarded (operand_apply address 2 session),
      bind_of_guarded (setRegister_apply _ _ session), ← guarded_append, ← guarded_append]
    rfl
  | add =>
    refine (arithmetic_apply .add address .add session).trans ?_
    rw [Operation.apply_add_ofByte]
    rfl
  | sub =>
    refine (arithmetic_apply .subtract address .sub session).trans ?_
    rw [Operation.apply_subtract_ofByte]
    rfl
  | mul =>
    refine (arithmetic_apply .multiply address .mul session).trans ?_
    rw [Operation.apply_multiply_ofByte]
    rfl
  | cmp =>
    unfold execute
    simp only
    rw [named_bind, named_bind, ← guarded_append]
    simp only [compareFlag_ofByte, Registers.setFlags_eq_assign, Number.toByte_ofByte]
    rfl

end Action

end EightBit
