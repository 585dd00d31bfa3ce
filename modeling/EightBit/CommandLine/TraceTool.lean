/-
The tracing tool: runs a program with every executed instruction shown, or lists it without running
it.
-/

import EightBit.CommandLine.Event
import EightBit.Environment
import EightBit.Files.Program
import EightBit.Text.Affix

namespace EightBit.TraceTool

structure Settings where
  program : String
  limit : Number
  list : Bool
  deriving DecidableEq, Repr

/-- The program traced when none is named. -/
def standardProgram : String :=
  "programs/print8.ls8"

def standardLimit : Number :=
  .ofNat 10000

def Settings.ofEnvironment (environment : Environment) : Settings :=
  { program := (environment.get? "PROGRAM").getD standardProgram
    limit := environment.number "TRACE_MAX" standardLimit
    list := false }

/-- Takes one argument into account. Others than the tool's own are ignored. -/
def Settings.take (settings : Settings) (argument : String) : Settings :=
  match Text.after? "--program=" argument with
  | some path => { settings with program := path }
  | none =>
    match Text.after? "--max=" argument with
    | some text => { settings with limit := .ofNumeral text }
    | none => if argument = "--list" then { settings with list := true } else settings

def Settings.parse (environment : Environment) (arguments : List String) : Settings :=
  arguments.foldl Settings.take (.ofEnvironment environment)

def callbacks : Callbacks Log where
  trace := some (writeLine .out)
  output := some fun line => writeLine .out ("[out] " ++ line)

/-- The lines after a run. -/
def summary (result : RunRecord) : List Event :=
  let digits := (Text.hexWord result.checksum).map Char.toLower
  let line := "[vm] " ++ result.reason.word ++ " after " ++ result.steps.repr ++
    " steps, memory crc=" ++ digits
  ⟨.out, line⟩ :: (result.fault.toList.map fun fault => ⟨.out, fault.text⟩)

/-- Carries out the tool, for a way to encode pictures. `none` when its program is not over after
the given number of turns. -/
def run (encode : Image → List UInt8) (turns : Nat) (environment : Environment)
    (arguments : List String) (files : Files.Store) : Option Outcome :=
  let settings := Settings.parse environment arguments
  if !files.pathExists settings.program then
    some { status := .ok 2, events := #[⟨.err, "Program not found: " ++ settings.program⟩], files }
  else
    match files.program encode settings.program with
    | .error fault => some { status := .error (.fault fault), events := #[], files }
    | .ok program =>
      if settings.list then
        let events := (Listing.lines program).map fun line => ⟨.out, line⟩
        some { status := .ok 0, events := events.toArray, files }
      else
        match Runner.execute callbacks settings.limit turns program #[] with
        | none => none
        | some (.error thrown) => some { status := .error thrown, events := #[], files }
        | some (.ok (result, events)) =>
          some { status := .ok 0, events := events ++ (summary result).toArray, files }

end EightBit.TraceTool
