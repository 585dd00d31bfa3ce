/-
The report of a failure: what was raised, and the machine as it stood: program counter, instruction,
registers, the addresses executed last, and the memory around the program counter.
-/

import EightBit.Listing
import EightBit.Machine.Basic

namespace EightBit

structure Report where
  kind : String
  message : String
  pc : Number
  opcode : Option Number
  instruction : Option String
  registers : List Number
  recent : List Number
  windowStart : Number
  windowBytes : List Number
  deriving DecidableEq, Repr

namespace Machine

/-- The instruction at a program counter, as the machine's memory shows it. -/
def decodeAt (machine : Machine) (pc : Number) : Decoded :=
  Listing.decodeAt (fun place => machine.memory.cellOrZero place.toNat) pc

/-- The trace line for an instruction about to execute. -/
def traceLine (machine : Machine) (observed : Observation) : String :=
  let pc := Number.ofNat observed.pc
  let decoded := machine.decodeAt pc
  Listing.traceLine pc decoded.mnemonic (.ofByte decoded.second) (.ofByte decoded.third)
    observed.registers.toNumbers

end Machine

namespace Report

/-- How many cells before the program counter a report shows. -/
def cellsBefore : Number :=
  .ofNat 8

/-- How many cells a report shows in all. -/
def cellsShown : Nat :=
  16

/-- The cells from a position up to an end, read one by one. -/
def readWindow (memory : Memory) : Nat → Number → Number → Except Fault (List Number)
  | 0, _, _ => .ok []
  | turns + 1, position, stop =>
    if position.lt stop then do
      let byte ← memory.read position
      let rest ← readWindow memory turns (position.add (.ofNat 1)) stop
      return .ofByte byte :: rest
    else .ok []

/-- Describes a machine at the point where something was raised. It fails if that has no message, or
if the program counter lies between two cells and no window can be read around it. -/
def describe (thrown : Thrown) (machine : Machine) : Except Thrown Report := do
  let message ← thrown.message
  let memory := machine.memory
  let pc := machine.pc
  let size := Number.ofNat memory.size
  let start := (Number.ofNat 0).max ((pc.min size).sub cellsBefore)
  let stop := size.min (start.add (.ofNat cellsShown))
  let bytes ← (readWindow memory (cellsShown + 1) start stop).mapError .fault
  let place := pc.index? memory.size
  return {
    kind := thrown.kind
    message
    pc
    opcode := place.map fun index => .ofByte (memory.cell index)
    instruction := place.map fun _ => (machine.decodeAt pc).text
    registers := machine.registers.toNumbers
    recent := (machine.recent.last Recent.reported).map Number.ofNat
    windowStart := start
    windowBytes := bytes }

/-! ### The text of a report -/

def firstLine (text : String) : String :=
  String.ofList (text.toList.takeWhile (· ≠ '\n'))

/-- A program counter inside the standard memory is shown in hexadecimal, any other as a number. -/
def pcText (pc : Number) : String :=
  if (Number.ofNat 0).le pc && pc.lt (.ofNat 256) then "$" ++ Text.hexByte pc.toByte else pc.text

def instructionSuffix : Option String → String
  | none => ""
  | some instruction => if instruction.isEmpty then "" else "  " ++ instruction

/-- The report in five lines. Values are shown by their low bytes. -/
def text (report : Report) : String :=
  String.intercalate "\n" [
    report.kind ++ ": " ++ firstLine report.message,
    "PC: " ++ pcText report.pc ++ instructionSuffix report.instruction,
    "Regs: " ++ registersText report.registers,
    "Mem[$" ++ Text.hexByte report.windowStart.toByte ++ "..]: " ++
      Text.hexBytes (report.windowBytes.map Number.toByte),
    "TracePC: " ++ String.intercalate " "
      (report.recent.map fun pc => "$" ++ Text.hexByte pc.toByte)]

end Report

end EightBit
