/-
How an access to a named file can fail.
-/

import EightBit.Text.Shown

namespace EightBit.Files

/-- What was being done to a path. -/
inductive Action where
  | opening
  | creatingDirectory
  deriving DecidableEq, Repr

def Action.word : Action → String
  | .opening => "open"
  | .creatingDirectory => "mkdir"

/-- Why a path could not be used. -/
inductive Cause where
  | missing
  | inTheWay
  | notDirectory
  | isDirectory
  | nameTooLong
  deriving DecidableEq, Repr

def Cause.text : Cause → String
  | .missing => "ENOENT: no such file or directory"
  | .inTheWay => "EEXIST: file already exists"
  | .notDirectory => "ENOTDIR: not a directory"
  | .isDirectory => "EISDIR: illegal operation on a directory"
  | .nameTooLong => "ENAMETOOLONG: name too long"

/-- A failed access. The path is the one the caller named; a path with a zero character in it is not
even tried. -/
inductive Error where
  | failed (cause : Cause) (action : Action) (path : String)
  | readsDirectory
  | zeroCharacter (path : String)
  deriving DecidableEq, Repr

namespace Error

/-- The name of the family an error belongs to. -/
def kind : Error → String
  | .zeroCharacter _ => "TypeError"
  | _ => "Error"

def message : Error → String
  | .failed cause action path => cause.text ++ ", " ++ action.word ++ " '" ++ path ++ "'"
  | .readsDirectory => Cause.isDirectory.text ++ ", read"
  | .zeroCharacter path =>
    "The argument 'path' must be a string, Uint8Array, or URL without null bytes. Received " ++
      Text.shown path

end Error

end EightBit.Files
