/-
The command line on real files and streams. All decisions are made by the pure command line; this
file reads the program, prints lines as they come, and writes the picture.
-/

import EightBit.CommandLine.Run
import EightBit.Image.Png

namespace EightBit.Host

/-- How many turns a run goes on before its lines are printed. -/
def turnsAtOnce : Nat :=
  4096

def emit (event : Event) : IO Unit :=
  match event.stream with
  | .out => IO.println event.text
  | .err => IO.eprintln event.text

/-- Prints the lines a session has collected. -/
def drain (session : Session (Recorder Log)) : IO (Session (Recorder Log)) := do
  for event in session.host.host do
    emit event
  return { session with host := { session.host with host := #[] } }

/-- Runs to the end, however long that takes. -/
partial def complete (options : Options) (session : Session (Recorder Log)) :
    IO (Runner.Ending × Session (Recorder Log)) := do
  match Runner.advance (CommandLine.callbacks options) options.limit turnsAtOnce session with
  | .over ending after => return (ending, ← drain after)
  | .underway after => complete options (← drain after)

/-- What a failure of the system means. A thing of the wrong type is a directory when the code says
so, and otherwise a file in a directory's place. -/
def fileError (path : String) (isDirectory : Files.Error) : IO.Error → Files.Error
  | .inappropriateType _ 21 _ => isDirectory
  | .inappropriateType .. => .failed .notDirectory .opening path
  | .invalidArgument .. => .failed .nameTooLong .opening path
  | _ => .failed .missing .opening path

def readFile (path : String) : IO (Except Files.Error (List UInt8)) := do
  if Files.Path.hasZeroCharacter path then return .error (.zeroCharacter path)
  try
    return .ok (← IO.FS.readBinFile path).toList
  catch error =>
    return .error (fileError path .readsDirectory error)

def readEnvironment : IO Environment := do
  let names := ["VM_TRACE", "VM_MAX_STEPS", "VM_DUMP_PNG"]
  let found ← names.filterMapM fun name => do
    return (← IO.getEnv name).map fun value => (name, value)
  return .ofList found

/-- The directory of a path whose dots are resolved in the text. -/
def parentOf (path : String) : String :=
  match Files.Path.join (Files.Path.resolve path).dropLast with
  | "" => "."
  | parent => parent

def writeImage (path : String) (image : Image) : IO Unit := do
  IO.FS.createDirAll (parentOf path)
  if Files.Path.hasZeroCharacter path then
    throw (IO.userError (Files.Error.zeroCharacter path).message)
  try
    IO.FS.writeBinFile path ⟨image.png.toArray⟩
  catch error =>
    throw (IO.userError (fileError path (.failed .isDirectory .opening path) error).message)

/-- What is shown of something raised that nothing caught. -/
def uncaught : Thrown → String
  | .fault cause => cause.text
  | thrown => thrown.message.toOption.getD thrown.kind

/-- Runs a loaded program and closes the command. -/
def execute (options : Options) (program : List UInt8) : IO UInt32 := do
  let session ← IO.ofExcept ((Runner.start program #[]).mapError Fault.text)
  let (ending, after) ← complete options session
  let result ← IO.ofExcept ((Runner.conclude ending after).mapError uncaught)
  if let some path := CommandLine.imagePath? options then
    writeImage path (.ofCells result.memory.toList Image.standardSide)
    emit (CommandLine.imageWritten path)
  let (last, status) := CommandLine.closing options result
  emit last
  return UInt32.ofNat status

def refuse (fault : Fault) : IO UInt32 := do
  emit (CommandLine.refusal fault)
  return UInt32.ofNat CommandLine.statusNotLoaded

def command (arguments : List String) : IO UInt32 := do
  match Options.parse (← readEnvironment) arguments with
  | .error fault => refuse fault
  | .ok options =>
    let found ← match options.program with
      | some path => readFile path
      | none => pure (.ok [])
    match CommandLine.opening options (fun _ => found) with
    | .error fault => refuse fault
    | .ok (program, announced) =>
      emit announced
      execute options program

end EightBit.Host

def main (arguments : List String) : IO UInt32 :=
  EightBit.Host.command arguments
