/-
The options of the command line. Arguments that begin with two dashes are options; one other
argument may name the program. Options win over the environment.
-/

import EightBit.Environment
import EightBit.Fault
import EightBit.Text.Affix

namespace EightBit

structure Options where
  program : Option String
  trace : Bool
  limit : Number
  image : Option String
  deriving DecidableEq, Repr

namespace Options

/-- What holds when no argument is given. -/
def ofEnvironment (environment : Environment) : Options :=
  { program := none
    trace := environment.flag "VM_TRACE"
    limit := environment.number "VM_MAX_STEPS" (.ofNat 0)
    image := environment.get? "VM_DUMP_PNG" }

/-- The step limit a text spells: finite and not negative. -/
def stepLimit? (text : String) : Option Number :=
  match Number.ofNumeral text with
  | .finite value => if value < 0 then none else some (.finite value)
  | _ => none

/-- Takes one argument into account. -/
def take (options : Options) (argument : String) : Except Fault Options :=
  if argument = "--trace" then .ok { options with trace := true }
  else match Text.after? "--max-steps=" argument with
    | some text =>
      match stepLimit? text with
      | some limit => .ok { options with limit := limit }
      | none => .error (.load (.badStepLimit text) none)
    | none =>
      match Text.after? "--dump-png=" argument with
      | some path => .ok { options with image := some path }
      | none =>
        if Text.startsWith "--" argument then .error (.load (.unknownOption argument) none)
        else match options.program with
          | none => .ok { options with program := some argument }
          | some _ => .error (.load (.unexpectedArgument argument) none)

/-- Takes arguments into account from left to right, up to the first that is not accepted. -/
def takeAll (options : Options) : List String → Except Fault Options
  | [] => .ok options
  | argument :: rest =>
    match options.take argument with
    | .ok taken => taken.takeAll rest
    | .error fault => .error fault

def parse (environment : Environment) (arguments : List String) : Except Fault Options :=
  (ofEnvironment environment).takeAll arguments

end Options

end EightBit
