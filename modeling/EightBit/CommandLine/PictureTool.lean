/-
The picture tool: runs a program and writes its final memory as a picture.
-/

import EightBit.CommandLine.Event
import EightBit.Files.Program
import EightBit.Number.Numeral
import EightBit.Text.Affix
import EightBit.Text.Quoted

namespace EightBit.PictureTool

structure Settings where
  program : String
  out : String
  scale : Number
  deriving DecidableEq, Repr

def usage : String :=
  "Usage: tsx scripts/dump-memory-png.ts <program.ls8> [out.png] [--scale=N]"

/-- Programs stop after this many steps. -/
def limit : Number :=
  .ofNat 100000

/-- Where the picture of a program goes when no place is named. -/
def standardOut (program : String) : String :=
  "screenshots/" ++ Files.Path.baseNameWithout ".ls8" program ++ "-memory.png"

/-- The settings that arguments spell: a program, a place for the picture, and the first scale. No
program, or an empty one, is not enough. -/
def Settings.parse? (arguments : List String) : Option Settings :=
  let places := arguments.filter fun argument => !Text.startsWith "--" argument
  let scale := match arguments.findSome? (Text.after? "--scale=") with
    | some text => Number.ofNumeral text
    | none => .ofNat Image.standardSide
  match places with
  | [] => none
  | program :: rest =>
    if program.isEmpty then none
    else
      let out := (rest.head?.filter fun place => !place.isEmpty).getD (standardOut program)
      some { program, out, scale }

/-- The summary line. -/
def summary (settings : Settings) (result : RunRecord) : String :=
  "\x7b\"program\":" ++ Text.quoted settings.program ++ ",\"out\":" ++ Text.quoted settings.out ++
    ",\"reason\":" ++ Text.quoted result.reason.word ++ ",\"steps\":" ++ result.steps.repr ++ "\x7d"

/-- Runs an action on files; its errors are faults. -/
def onFiles (action : EStateM Files.Error Files.Store Unit) : EStateM Fault Files.Store Unit :=
  fun files =>
    match action files with
    | .ok _ after => .ok () after
    | .error error after => .error (.file error) after

/-- Draws a picture and writes it. Its directory is made by the path as it is, and before the
picture is drawn. -/
def saveImage (settings : Settings) (cells : List UInt8) : EStateM Fault Files.Store Unit := do
  onFiles (Files.Store.makeDirectories (Files.Path.directoryName settings.out))
  match Image.draw cells (some settings.scale) with
  | .error fault => throw fault
  | .ok image => onFiles (Files.Store.write settings.out (.picture image))

def callbacks : Callbacks Log :=
  { trace := none, output := none }

/-- Carries out the tool, for a way to encode pictures. `none` when its program is not over after
the given number of turns. -/
def run (encode : Image → List UInt8) (turns : Nat) (arguments : List String)
    (files : Files.Store) : Option Outcome :=
  match Settings.parse? arguments with
  | none => some { status := .ok 2, events := #[⟨.err, usage⟩], files }
  | some settings =>
    match files.program encode settings.program with
    | .error fault => some { status := .error (.fault fault), events := #[], files }
    | .ok program =>
      match Runner.execute callbacks limit turns program #[] with
      | none => none
      | some (.error thrown) => some { status := .error thrown, events := #[], files }
      | some (.ok (result, events)) =>
        match saveImage settings result.memory.toList files with
        | .error fault files => some { status := .error (.fault fault), events, files }
        | .ok _ files =>
          some { status := .ok 0, events := events.push ⟨.out, summary settings result⟩, files }

end EightBit.PictureTool
