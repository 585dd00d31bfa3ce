/-
The instruction set: fourteen opcodes, each with its byte, its mnemonic and the kinds of its
operands. An instruction is one byte longer than it has operands.
-/

import EightBit.Number.Basic
import EightBit.Text.Capital

namespace EightBit

/-- What an operand byte stands for. -/
inductive Operand where
  | register
  | immediate
  deriving DecidableEq, Repr

inductive Opcode where
  | hlt
  | ret
  | push
  | pop
  | prn
  | call
  | jmp
  | jeq
  | jne
  | ldi
  | add
  | sub
  | mul
  | cmp
  deriving DecidableEq, Repr

namespace Opcode

/-- All opcodes, by ascending byte. -/
def all : List Opcode :=
  [.hlt, .ret, .push, .pop, .prn, .call, .jmp, .jeq, .jne, .ldi, .add, .sub, .mul, .cmp]

def byte : Opcode → UInt8
  | .hlt => 0x01
  | .ret => 0x11
  | .push => 0x45
  | .pop => 0x46
  | .prn => 0x47
  | .call => 0x50
  | .jmp => 0x54
  | .jeq => 0x55
  | .jne => 0x56
  | .ldi => 0x82
  | .add => 0xA0
  | .sub => 0xA1
  | .mul => 0xA2
  | .cmp => 0xA7

def mnemonic : Opcode → String
  | .hlt => "HLT"
  | .ret => "RET"
  | .push => "PUSH"
  | .pop => "POP"
  | .prn => "PRN"
  | .call => "CALL"
  | .jmp => "JMP"
  | .jeq => "JEQ"
  | .jne => "JNE"
  | .ldi => "LDI"
  | .add => "ADD"
  | .sub => "SUB"
  | .mul => "MUL"
  | .cmp => "CMP"

def operands : Opcode → List Operand
  | .hlt | .ret => []
  | .push | .pop | .prn | .call | .jmp | .jeq | .jne => [.register]
  | .ldi => [.register, .immediate]
  | .add | .sub | .mul | .cmp => [.register, .register]

def length (opcode : Opcode) : Nat :=
  opcode.operands.length + 1

/-! ### Finding an opcode -/

/-- The opcode a byte stands for. -/
def decode? (byte : UInt8) : Option Opcode :=
  all.find? fun opcode => opcode.byte = byte

theorem decode?_byte (opcode : Opcode) : decode? opcode.byte = some opcode := by
  cases opcode <;> rfl

theorem byte_of_decode? {byte : UInt8} {opcode : Opcode} (found : decode? byte = some opcode) :
    opcode.byte = byte := by
  unfold decode? at found
  have matched := List.find?_some found
  exact of_decide_eq_true matched

/-- The opcode whose byte is exactly the given number; nothing is reduced to a byte here. -/
def ofNumber? (code : Number) : Option Opcode :=
  all.find? fun opcode => Number.ofByte opcode.byte = code

/-- The opcode with a mnemonic, in capitals or small letters. -/
def ofMnemonic? (name : String) : Option Opcode :=
  all.find? fun opcode => opcode.mnemonic = Text.capitals name

end Opcode

end EightBit
