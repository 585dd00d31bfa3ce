/-
Everything that can go wrong, as causes with their wording. A `Fault` is raised by the machine, its
loader or its options; a `Thrown` value is a fault or whatever a host's callback raised. The text of
a fault is at hand. That of a host's value has to be asked for, and asking may raise something in
turn.
-/

import EightBit.Files.Error
import EightBit.Number.Shortest
import EightBit.Text.Grouped
import EightBit.Text.Hex

namespace EightBit

/-- What an address was wanted for. A host may have a word of its own for it. -/
inductive Access where
  | read
  | write
  | stack
  | other (word : String)
  deriving DecidableEq, Repr

def Access.word : Access → String
  | .read => "read"
  | .write => "write"
  | .stack => "stack"
  | .other word => word

/-- Registers as `R0=00 R1=01 ...`, each shown by its low byte. -/
def registersText (registers : List Number) : String :=
  String.intercalate " " <| registers.mapIdx fun index value =>
    "R" ++ index.repr ++ "=" ++ Text.hexByte value.toByte

/-- Why a program or a command was not accepted. -/
inductive LoadProblem where
  | doesNotFit (length : Nat) (offset : Number) (size : Nat)
  | notBinary (text : String)
  | tooLong (capacity : Nat)
  | unreadable (path : String) (cause : Files.Error)
  | badStepLimit (text : String)
  | unknownOption (text : String)
  | unexpectedArgument (text : String)
  | other (message : String)
  deriving DecidableEq, Repr

def LoadProblem.message : LoadProblem → String
  | .doesNotFit length offset size =>
    "cannot fit " ++ length.repr ++ " bytes at " ++ offset.text ++ ", memory holds " ++ size.repr
  | .notBinary text => "not a binary byte literal: \"" ++ text ++ "\""
  | .tooLong capacity => "program exceeds " ++ capacity.repr ++ " bytes"
  | .unreadable path cause => "cannot read " ++ path ++ ": " ++ cause.message
  | .badStepLimit text => "invalid --max-steps value: " ++ text
  | .unknownOption text => "unknown option: " ++ text
  | .unexpectedArgument text => "unexpected argument: " ++ text
  | .other message => message

/-- A size or position that a row of bytes cannot have. -/
inductive RangeProblem where
  | length (size : Number)
  | bufferSize (size : Number)
  | room
  | offset
  deriving DecidableEq, Repr

def RangeProblem.message : RangeProblem → String
  | .length size => "Invalid typed array length: " ++ size.text
  | .bufferSize size =>
    "The value of \"size\" is out of range. It must be >= 0 && <= 9007199254740991. Received " ++
      Text.grouped size.text
  | .room => "Array buffer allocation failed"
  | .offset => "offset is out of bounds"

/-- The causes of failure. Numbers are kept as they were given. -/
inductive Fault where
  | general (message : String)
  | address (address : Number) (access : Access) (size : Number)
  | register (index : Number)
  | unknownOpcode (address opcode : Number) (registers : List Number)
  | unsupportedOperation (selector : String)
  | fatal (message : String)
  | load (problem : LoadProblem) (line : Option Number)
  | range (problem : RangeProblem)
  | noPixels
  | noPrimitive
  | file (error : Files.Error)
  deriving DecidableEq, Repr

namespace Fault

/-- The name of the family a fault belongs to. -/
def kind : Fault → String
  | .general _ => "VMError"
  | .address .. => "AddressError"
  | .register _ => "RegisterError"
  | .unknownOpcode .. => "UnknownOpcodeError"
  | .unsupportedOperation _ => "FatalError"
  | .fatal _ => "FatalError"
  | .load .. => "LoadError"
  | .range _ => "RangeError"
  | .noPixels => "TypeError"
  | .noPrimitive => "TypeError"
  | .file error => error.kind

def message : Fault → String
  | .general message => message
  | .address wanted access size =>
    access.word ++ ": address " ++ wanted.text ++ " outside bounds [0, " ++ size.text ++ ")"
  | .register index => "register index " ++ index.text ++ " outside [0, 8)"
  | .unknownOpcode place opcode registers =>
    "Unknown opcode $" ++ Text.hexByte opcode.toByte ++ " at $" ++ Text.hexByte place.toByte ++
      "\nRegs: " ++ registersText registers
  | .unsupportedOperation selector => "Unsupported ALU operation: " ++ selector
  | .fatal message => message
  | .load problem none => problem.message
  | .load problem (some line) => "line " ++ line.text ++ ": " ++ problem.message
  | .range problem => problem.message
  | .noPixels => "Cannot set properties of null (setting '0')"
  | .noPrimitive => "Cannot convert object to primitive value"
  | .file error => error.message

/-- Kind and message together; the kind alone when there is no message. -/
def text (fault : Fault) : String :=
  if fault.message.isEmpty then fault.kind else fault.kind ++ ": " ++ fault.message

end Fault

mutual

/-- What ends a computation early: a fault, an error of the host's own, or any other value that a
host's callback raised. -/
inductive Thrown where
  | fault (cause : Fault)
  | error (message : String)
  | value (raised : Raised)
  deriving DecidableEq, Repr

/-- A value that is no error. A primitive one has a text. An object is known by its two conversions,
of which the one to a value is only tried when the one to a text has led nowhere. -/
inductive Raised where
  | primitive (text : String)
  | object (toText toValue : Conversion)
  deriving DecidableEq, Repr

/-- What comes of a conversion of an object: it does not exist, it gives an object again, it gives a
primitive value with its text, or it raises something itself. -/
inductive Conversion where
  | missing
  | object
  | primitive (text : String)
  | raises (thrown : Thrown)
  deriving DecidableEq, Repr

end

/-- The text a conversion gives, or what is tried next. -/
def Conversion.textOr (next : Except Thrown String) : Conversion → Except Thrown String
  | .missing | .object => next
  | .primitive text => .ok text
  | .raises thrown => .error thrown

/-- The text of a value. An object that cannot be made a primitive value has none. -/
def Raised.text : Raised → Except Thrown String
  | .primitive text => .ok text
  | .object toText toValue => toText.textOr (toValue.textOr (.error (.fault .noPrimitive)))

namespace Thrown

def kind : Thrown → String
  | .fault cause => cause.kind
  | .error _ => "Error"
  | .value _ => "Error"

/-- What was raised, in words, or what was raised by asking for them. -/
def message : Thrown → Except Thrown String
  | .fault cause => .ok cause.message
  | .error message => .ok message
  | .value raised => raised.text

end Thrown

end EightBit
