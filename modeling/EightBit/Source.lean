/-
Program text. A program is written one byte to a line, as a binary literal of at most eight digits;
a number sign starts a comment, and blanks around a literal do not count. `parse` reads such a text
and `format` writes one.
-/

import EightBit.Memory
import EightBit.Text.Blank

namespace EightBit.Source

/-! ### Lines -/

/-- The lines of a text, divided by line feeds. A carriage return before a line feed belongs to the
division; any other is part of its line. -/
def lines : List Char → List (List Char)
  | [] => [[]]
  | '\n' :: rest => [] :: lines rest
  | '\r' :: '\n' :: rest => [] :: lines rest
  | char :: rest =>
    match lines rest with
    | [] => [[char]]
    | line :: more => (char :: line) :: more

/-- Characters at which a comment stops although its line goes on. -/
def endsComment (char : Char) : Bool :=
  char = '\n' || char = '\r' || char.toNat = 0x2028 || char.toNat = 0x2029

/-- A line without its first comment. -/
def withoutComment (line : List Char) : List Char :=
  line.takeWhile (· ≠ '#') ++ (line.dropWhile (· ≠ '#')).dropWhile fun char => !endsComment char

/-- What a line says: its text without comment and surrounding blanks. -/
def residue (line : List Char) : List Char :=
  Text.trim (withoutComment line)

/-! ### Literals -/

def isBinaryDigit (char : Char) : Bool :=
  char = '0' || char = '1'

def binaryValue (digits : List Char) : Nat :=
  digits.foldl (fun value digit => 2 * value + (if digit = '1' then 1 else 0)) 0

/-- The byte that a literal of one to eight binary digits denotes. -/
def literal? (text : List Char) : Option UInt8 :=
  if 1 ≤ text.length ∧ text.length ≤ 8 ∧ text.all isBinaryDigit then
    some (UInt8.ofNat (binaryValue text))
  else none

/-! ### Programs -/

/-- How many bytes a program may have. -/
def capacity : Nat :=
  Memory.standardSize

/-- The bytes of the lines from the given line number on, after `count` bytes. The first line that
is malformed, or one byte too many, is reported; a malformed one as such. -/
def parseLines (number count : Nat) : List (List Char) → Except Fault (List UInt8)
  | [] => .ok []
  | line :: rest =>
    match residue line with
    | [] => parseLines (number + 1) count rest
    | text =>
      match literal? text with
      | none => .error (.load (.notBinary (String.ofList text)) (some (.ofNat number)))
      | some byte =>
        if capacity ≤ count then .error (.load (.tooLong capacity) (some (.ofNat number)))
        else
          match parseLines (number + 1) (count + 1) rest with
          | .ok bytes => .ok (byte :: bytes)
          | .error fault => .error fault

/-- The program that a text denotes. -/
def parse (text : String) : Except Fault (List UInt8) :=
  parseLines 1 0 (lines text.toList)

/-- One line of program text; an empty comment is none. -/
def formatLine (byte : UInt8) (comment : Option String) : String :=
  let literal := String.ofList (Text.binaryByte byte)
  match comment with
  | none => literal
  | some comment => if comment.isEmpty then literal else literal ++ " # " ++ comment

/-- The text of a program, with a comment for each byte that has one. -/
def format (bytes : List UInt8) (comments : List (Option String)) : String :=
  String.intercalate "\n"
    (bytes.mapIdx fun index byte => formatLine byte (comments[index]?.join)) ++ "\n"

end EightBit.Source
