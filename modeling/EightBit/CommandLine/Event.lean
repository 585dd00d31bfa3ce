/-
What a command does to the outside: the lines it writes, in order and by stream, the files it
leaves, and how it ends.
-/

import EightBit.Fault
import EightBit.Files.Store
import EightBit.Runner

namespace EightBit

inductive Stream where
  | out
  | err
  deriving DecidableEq, Repr

/-- One line written to a stream. The line of a report may have line ends in it. -/
structure Event where
  stream : Stream
  text : String
  deriving DecidableEq, Repr

/-- The lines written so far. -/
abbrev Log :=
  Array Event

/-- Writes a line. Writing never fails. -/
def writeLine (stream : Stream) (text : String) : EStateM Thrown Log Unit :=
  modify fun log => log.push ⟨stream, text⟩

/-- How a command ended: with a status, or with something raised that it did not catch. -/
structure Outcome where
  status : Except Thrown Nat
  events : Log
  files : Files.Store

end EightBit
