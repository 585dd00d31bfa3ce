/-
One step of the machine: fetch, decode, tell the observer, count, execute. Each instruction is
written as the sequence of its accesses, so the first access that fails decides the fault. A step
keeps its state when it fails: what had been changed by then stays changed, inside an access to the
stack as between two accesses. Any failure halts the machine.
-/

import EightBit.Arithmetic
import EightBit.Machine.Basic

namespace EightBit

/-- Whether the machine goes on after a step. -/
inductive Flow where
  | proceed
  | halt
  deriving DecidableEq, Repr

/-- A computation on a session that may be cut short. -/
abbrev Action (Host : Type) :=
  EStateM Thrown (Session Host)

namespace Action

variable {Host : Type}

/-! ### Accesses -/

def attempt {α : Type} : Except Fault α → Action Host α
  | .ok value => pure value
  | .error fault => throw (.fault fault)

def machine : Action Host Machine := do
  return (← get).machine

def update (change : Machine → Machine) : Action Host Unit :=
  modify fun session => { session with machine := change session.machine }

/-- Runs a computation of the host. -/
def onHost (action : EStateM Thrown Host Unit) : Action Host Unit := fun session =>
  match action session.host with
  | .ok _ host => .ok () { session with host }
  | .error thrown host => .error thrown { session with host }

/-- The byte `offset` places after the opcode at an address. -/
def operand (address offset : Nat) : Action Host UInt8 := do
  attempt ((← machine).memory.read (.ofNat (address + offset)))

def register (index : UInt8) : Action Host UInt8 := do
  attempt ((← machine).registers.get (.ofByte index))

def setRegister (index value : UInt8) : Action Host Unit := do
  let registers ← attempt ((← machine).registers.set (.ofByte index) (.ofByte value))
  update fun machine => { machine with registers }

/-- The session with its storage replaced. -/
def store (session : Session Host) (storage : Storage) : Session Host :=
  { session with machine := { session.machine with toStorage := storage } }

/-- Runs a computation on storage. What it left there stays, also when it failed. -/
def onStorage {α : Type} (action : EStateM Fault Storage α) : Action Host α := fun session =>
  match action session.machine.toStorage with
  | .ok value storage => .ok value (store session storage)
  | .error fault storage => .error (.fault fault) (store session storage)

def push (value : Number) : Action Host Unit :=
  onStorage (Storage.push value)

def pop : Action Host UInt8 :=
  onStorage Storage.pop

def goTo (target : Nat) : Action Host Unit :=
  update fun machine => { machine with pc := .ofNat target }

/-! ### Instructions -/

/-- Moves past an instruction. -/
def pass (address : Nat) (opcode : Opcode) : Action Host Flow := do
  goTo (address + opcode.length)
  return .proceed

/-- Both operands are fetched before either register is looked at. -/
def arithmetic (operation : Operation) (address : Nat) (opcode : Opcode) :
    Action Host Flow := do
  let left ← operand address 1
  let right ← operand address 2
  let result := operation.apply (.ofByte (← register left)) (.ofByte (← register right))
  setRegister left result
  pass address opcode

/-- The operand names the register that holds the target; it is looked at even when the jump is not
taken. -/
def branch (taken : Bool) (address : Nat) (opcode : Opcode) : Action Host Flow := do
  let target ← register (← operand address 1)
  if taken then
    goTo target.toNat
    return .proceed
  else
    pass address opcode

/-- Whether the last comparison found its sides equal. -/
def equalSet : Action Host Bool := do
  return (← machine).registers.flags &&& equalFlag ≠ 0

def execute (devices : Devices Host) (address : Nat) (opcode : Opcode) : Action Host Flow :=
  match opcode with
  | .hlt => do
    goTo (address + 1)
    return .halt
  | .ldi => do
    let target ← operand address 1
    let value ← operand address 2
    setRegister target value
    pass address opcode
  | .prn => do
    let value ← register (← operand address 1)
    onHost (devices.output value.toNat.repr)
    pass address opcode
  | .add => arithmetic .add address opcode
  | .sub => arithmetic .subtract address opcode
  | .mul => arithmetic .multiply address opcode
  | .cmp => do
    let left ← register (← operand address 1)
    let right ← register (← operand address 2)
    let flag := compareFlag (.ofByte left) (.ofByte right)
    update fun machine =>
      { machine with registers := machine.registers.setFlags (.ofByte flag) }
    pass address opcode
  | .push => do
    let value ← register (← operand address 1)
    push (.ofByte value)
    pass address opcode
  | .pop => do
    let target ← operand address 1
    -- the destination is checked before the stack moves
    let _ ← register target
    setRegister target (← pop)
    pass address opcode
  | .call => do
    let target ← register (← operand address 1)
    let back := address + 2
    let size := (← machine).memory.size
    -- a return address past the end of memory cannot be come back to
    if size ≤ back then
      throw (.fault (.address (.ofNat back) .stack (.ofNat size)))
    push (.ofNat back)
    goTo target.toNat
    return .proceed
  | .ret => do
    let target ← pop
    goTo target.toNat
    return .proceed
  | .jmp => branch true address opcode
  | .jeq => do branch (← equalSet) address opcode
  | .jne => do branch (!(← equalSet)) address opcode

/-! ### Fetching -/

def observation (machine : Machine) (address : Nat) (byte : UInt8) : Observation :=
  { pc := address
    opcode := byte
    operands := (machine.memory.cellOrZero (address + 1), machine.memory.cellOrZero (address + 2))
    registers := machine.registers }

/-- Tells the observer, if there is one. -/
def observe (devices : Devices Host) (address : Nat) (byte : UInt8) : Action Host Unit := do
  match devices.trace with
  | none => return ()
  | some trace =>
    let machine ← machine
    onHost (trace machine (observation machine address byte))

/-- Counts the instruction at an address. -/
def count (address : Nat) : Action Host Unit :=
  update fun machine =>
    { machine with recent := machine.recent.record address, steps := machine.steps + 1 }

/-- Fetches and executes the instruction at the program counter. An instruction counts once it is
decoded and the observer has let it pass. -/
def fetch (devices : Devices Host) : Action Host Flow := do
  let machine ← machine
  let address ← attempt (machine.memory.locate machine.pc .read)
  let byte := machine.memory.cell address
  match Opcode.decode? byte with
  | none =>
    throw (.fault (.unknownOpcode machine.pc (.ofByte byte) machine.registers.toNumbers))
  | some opcode =>
    observe devices address byte
    count address
    execute devices address opcode

end Action

/-- Marks the machine as halted. -/
def Session.halt {Host : Type} (session : Session Host) : Session Host :=
  { session with machine := { session.machine with halted := true } }

/-- One step. A halted machine stays halted and does nothing; a machine that executes a halt, or
fails, is halted from then on. -/
def step {Host : Type} (devices : Devices Host) : Action Host Flow := fun session =>
  if session.machine.halted then .ok .halt session
  else match Action.fetch devices session with
    | .ok .proceed after => .ok .proceed after
    | .ok .halt after => .ok .halt after.halt
    | .error thrown after => .error thrown after.halt

end EightBit
