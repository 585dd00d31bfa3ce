/-
Bytes as instructions. A decoded instruction shows its mnemonic and operands and the bytes it was
decoded from; bytes that are no opcode stand for themselves. Addresses wrap at 256 here, so that
decoding never fails, whatever it is pointed at.
-/

import EightBit.Instruction
import EightBit.Number.Shortest
import EightBit.Text.Blank
import EightBit.Text.Hex

namespace EightBit

namespace Listing

/-! ### Operands -/

def operandText (kind : Operand) (value : Number) : String :=
  match kind with
  | .register => "R" ++ value.text
  | .immediate => "#" ++ value.text

/-- Operands of the given kinds, with a comma between two of them. A value may be left out. -/
def operandsText (kinds : List Operand) (values : List Number) : String :=
  String.intercalate ","
    (kinds.mapIdx fun index kind => operandText kind (values[index]?.getD .absent))

/-- Mnemonic and operands as one text. -/
def instructionText (mnemonic operand : String) : String :=
  let joined := if operand.isEmpty then mnemonic else mnemonic ++ " " ++ operand
  String.ofList (Text.trim joined.toList)

end Listing

/-! ### Decoding -/

/-- Three bytes in a row, seen as an instruction and what follows it. -/
structure Decoded where
  first : UInt8
  second : UInt8
  third : UInt8
  deriving DecidableEq, Repr

namespace Decoded

/-- The opcode, if the first byte is one. -/
def opcode? (decoded : Decoded) : Option Opcode :=
  Opcode.decode? decoded.first

/-- The mnemonic shown for a byte that is no opcode. -/
def unknownMnemonic : String :=
  "???"

def mnemonic (decoded : Decoded) : String :=
  match decoded.opcode? with
  | some opcode => opcode.mnemonic
  | none => unknownMnemonic

/-- How many of the bytes belong to the instruction. -/
def length (decoded : Decoded) : Nat :=
  match decoded.opcode? with
  | some opcode => opcode.length
  | none => 1

def operand (decoded : Decoded) : String :=
  match decoded.opcode? with
  | some opcode =>
    Listing.operandsText opcode.operands [.ofByte decoded.second, .ofByte decoded.third]
  | none => ""

def toList (decoded : Decoded) : List UInt8 :=
  [decoded.first, decoded.second, decoded.third]

/-- The bytes that belong to the instruction. -/
def bytes (decoded : Decoded) : List UInt8 :=
  decoded.toList.take decoded.length

def text (decoded : Decoded) : String :=
  Listing.instructionText decoded.mnemonic decoded.operand

end Decoded

namespace Listing

/-- The three addresses that decoding at a program counter looks at. -/
def window (pc : Number) : UInt8 × UInt8 × UInt8 :=
  (pc.toByte, (pc.add (.ofNat 1)).toByte, (pc.add (.ofNat 2)).toByte)

/-- The instruction at a program counter, seen through a reader of cells. -/
def decodeAt (cell : UInt8 → UInt8) (pc : Number) : Decoded :=
  let (first, second, third) := window pc
  { first := cell first, second := cell second, third := cell third }

/-! ### The listing of a program -/

/-- Fills a text with blanks up to a width. -/
def padRight (width : Nat) (text : String) : String :=
  text ++ String.ofList (List.replicate (width - text.length) ' ')

/-- One line: address, bytes in a column of nine characters, instruction. -/
def line (address : Nat) (decoded : Decoded) : String :=
  Text.hexByte (Number.ofNat address).toByte ++ ": " ++
    padRight 9 (Text.hexBytes decoded.bytes) ++ " " ++ decoded.text

/-- The addresses of a program's instructions, each with the instruction decoded there. Cells past
the end of the program count as zero. -/
def instructionsFrom (program : Array UInt8) : Nat → Nat → List (Nat × Decoded)
  | 0, _ => []
  | turns + 1, address =>
    if address < program.size then
      let cell := fun place : UInt8 => program[place.toNat]?.getD 0
      let decoded := decodeAt cell (.ofNat address)
      (address, decoded) :: instructionsFrom program turns (address + decoded.length)
    else []

/-- The instructions of a program from its first byte on. Every one has a byte of its own, so the
size of the program bounds their number. -/
def instructions (program : List UInt8) : List (Nat × Decoded) :=
  instructionsFrom program.toArray program.length 0

/-- The lines of a program, one instruction each. -/
def lines (program : List UInt8) : List String :=
  (instructions program).map fun (address, decoded) => line address decoded

/-! ### Trace lines -/

/-- The line for one executed instruction: where, what, and the registers before it. -/
def traceLine (pc : Number) (mnemonic : String) (second third : Number)
    (registers : List Number) : String :=
  "TRACE: " ++ Text.hexByte pc.toByte ++ " | " ++ mnemonic ++ " " ++
    Text.hexByte second.toByte ++ " " ++ Text.hexByte third.toByte ++ " | " ++
    Text.hexBytes (registers.map Number.toByte)

end Listing

end EightBit
