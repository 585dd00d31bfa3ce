/-
The machine and its surroundings. A machine is its storage, a program counter, and what it has done
since the last reset. Its surroundings are two devices, an observer of executed instructions and a
sink for printed lines. Both act on a state of the host's own and may fail, and neither can touch
the machine.
-/

import EightBit.Instruction
import EightBit.Recent
import EightBit.Stack

namespace EightBit

/-- The state of the machine. The program counter is a number because a host may set it to any. -/
structure Machine extends Storage where
  pc : Number
  halted : Bool
  steps : Nat
  programLength : Nat
  recent : Recent
  deriving DecidableEq, Repr

namespace Machine

/-- A machine over the given memory, with nothing loaded. -/
def create (memory : Memory) : Machine :=
  { memory
    registers := .initial
    pc := .ofNat 0
    halted := false
    steps := 0
    programLength := 0
    recent := .empty }

def isLoaded (machine : Machine) : Bool :=
  0 < machine.programLength

/-- Back to the start of the program. Memory stays as it is. -/
def reset (machine : Machine) : Machine :=
  { machine with
    registers := .initial
    pc := .ofNat 0
    halted := false
    steps := 0
    recent := machine.recent.forget }

/-- Places a program at address zero of cleared memory and resets the machine. When the program
does not fit, memory has been cleared and all else is as it was. -/
def load (program : List UInt8) : EStateM Fault Machine Unit := do
  modify fun machine => { machine with memory := machine.memory.clear }
  match (← get).memory.load program (.ofNat 0) with
  | .error fault => throw fault
  | .ok memory =>
    modify fun machine => { machine with memory, programLength := program.length }
    modify reset

end Machine

/-- What the observer is told before an instruction executes: where it stands, its opcode byte, the
two bytes after it (zero outside memory), and the registers. -/
structure Observation where
  pc : Nat
  opcode : UInt8
  operands : UInt8 × UInt8
  registers : Registers
  deriving DecidableEq, Repr

/-- The two devices of a machine over a host state. -/
structure Devices (Host : Type) where
  trace : Option (Machine → Observation → EStateM Thrown Host Unit)
  output : String → EStateM Thrown Host Unit

/-- A machine together with the state of its host. -/
structure Session (Host : Type) where
  machine : Machine
  host : Host

end EightBit
