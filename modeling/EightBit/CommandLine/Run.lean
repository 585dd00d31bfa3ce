/-
The command line: load a program, run it, write its picture if one is asked for, and close with one
line and a status. Printed lines go to the output stream, everything else to the error stream.
-/

import EightBit.CommandLine.Event
import EightBit.CommandLine.Options
import EightBit.Files.Program

namespace EightBit.CommandLine

/-! ### Statuses -/

def statusHalted : Nat :=
  0

def statusFailed : Nat :=
  1

def statusNotLoaded : Nat :=
  2

def statusTimedOut : Nat :=
  3

/-! ### Loading -/

/-- The program that the options name, with the line that announces it. No program is an empty
one. -/
def opening (options : Options) (read : String → Except Files.Error (List UInt8)) :
    Except Fault (List UInt8 × Event) := do
  match options.program with
  | none => return ([], ⟨.err, "[vm] No program given"⟩)
  | some path =>
    let program ← Files.programOf path (read path)
    let text := "[load] " ++ program.length.repr ++ " bytes from " ++ Files.Path.baseName path
    return (program, ⟨.err, text⟩)

/-- The line for a program or a command that was not accepted. -/
def refusal (fault : Fault) : Event :=
  ⟨.err, "[load] " ++ fault.message⟩

/-! ### Running -/

def callbacks (options : Options) : Callbacks Log where
  trace := if options.trace then some (writeLine .err) else none
  output := some (writeLine .out)

/-! ### Closing -/

/-- The path of the picture, if one is asked for. An empty path asks for none. -/
def imagePath? (options : Options) : Option String :=
  options.image.filter fun path => !path.isEmpty

/-- Writes a picture. Its directory is made where the path leads by its text; the file is opened by
the path as it is. -/
def saveImage (path : String) (image : Image) : EStateM Files.Error Files.Store Unit := do
  Files.Store.makeParents path
  Files.Store.write path (.picture image)

def imageWritten (path : String) : Event :=
  ⟨.err, "[vm] memory image written to " ++ path⟩

/-- The last line of a command and its status. -/
def closing (options : Options) (result : RunRecord) : Event × Nat :=
  match result.reason with
  | .halt => (⟨.err, "[vm] halted after " ++ result.steps.repr ++ " steps"⟩, statusHalted)
  | .timeout =>
    (⟨.err, "[vm] step limit " ++ options.limit.text ++ " reached"⟩, statusTimedOut)
  | .fail =>
    let text := match result.fault with
      | some fault => fault.text
      | none => "[vm] " ++ result.message.getD "fault"
    (⟨.err, text⟩, statusFailed)

/-- Ends a command whose program has run. -/
def finish (options : Options) (result : RunRecord) (events : Log) (files : Files.Store) :
    Outcome :=
  let (last, status) := closing options result
  match imagePath? options with
  | none => { status := .ok status, events := events.push last, files }
  | some path =>
    match saveImage path (.ofCells result.memory.toList Image.standardSide) files with
    | .ok _ files =>
      { status := .ok status, events := (events.push (imageWritten path)).push last, files }
    | .error error files => { status := .error (.fault (.file error)), events, files }

/-- Carries out a command, for a way to encode pictures. `none` when its program is not over after
the given number of turns. -/
def run (encode : Image → List UInt8) (turns : Nat) (environment : Environment)
    (arguments : List String) (files : Files.Store) : Option Outcome :=
  let prepared := do
    let options ← Options.parse environment arguments
    return (options, ← opening options (files.readBytes encode))
  match prepared with
  | .error fault => some { status := .ok statusNotLoaded, events := #[refusal fault], files }
  | .ok (options, program, announced) =>
    match Runner.execute (callbacks options) options.limit turns program #[announced] with
    | none => none
    | some (.error thrown) => some { status := .error thrown, events := #[announced], files }
    | some (.ok (result, events)) => some (finish options result events files)

end EightBit.CommandLine
