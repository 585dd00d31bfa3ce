/-
The environment of a command: named texts. A variable that is empty counts as unset.
-/

import EightBit.Number.Numeral

namespace EightBit

structure Environment where
  bindings : List (String × String)
  deriving DecidableEq, Repr

namespace Environment

def empty : Environment :=
  ⟨[]⟩

/-- A text up to its first zero character, where names and values end. -/
def untilZero (text : String) : String :=
  String.ofList (text.toList.takeWhile (· ≠ '\x00'))

/-- Whether a variable can have a name. -/
def isName (name : String) : Bool :=
  !name.isEmpty && !name.toList.contains '='

/-- The environment in which variables were set one after the other. -/
def ofList (settings : List (String × String)) : Environment :=
  ⟨((settings.map fun (name, value) => (untilZero name, untilZero value)).filter fun (name, _) =>
    isName name).reverse⟩

def get? (environment : Environment) (name : String) : Option String :=
  (environment.bindings.lookup name).filter fun value => !value.isEmpty

/-- Whether a variable is switched on. -/
def flag (environment : Environment) (name : String) : Bool :=
  environment.get? name = some "1" || environment.get? name = some "true"

/-- The value of a variable made of digits, or the fallback. -/
def number (environment : Environment) (name : String) (fallback : Number) : Number :=
  match environment.get? name with
  | some value => if isNumeral value then .ofNumeral value else fallback
  | none => fallback

end Environment

end EightBit
