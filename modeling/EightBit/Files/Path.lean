/-
Paths as texts: their parts, the last of them, and the directory before it; and the places they
lead to. A place is told by the names on the way from the working directory down to it. Above the
working directory it starts with as many pairs of dots as there are levels to go up, and the root
of all places is told by a slash.
-/

import EightBit.Text.Affix

namespace EightBit.Files.Path

/-! ### Texts -/

/-- The parts between slashes. Empty ones do not count. -/
def parts (path : String) : List String :=
  ((path.splitOn "/").filter fun part => !part.isEmpty)

def startsInSlash (path : String) : Bool :=
  path.toList.head? = some '/'

def endsInSlash (path : String) : Bool :=
  path.toList.getLast? = some '/'

def hasZeroCharacter (path : String) : Bool :=
  path.toList.contains '\x00'

/-- The longest name a file can have, in bytes. -/
def longestName : Nat :=
  255

/-- The longest path that can be followed, in bytes. -/
def longestPath : Nat :=
  4095

/-- The last part. -/
def baseName (path : String) : String :=
  (parts path).getLast?.getD ""

/-- The last part without an ending. A part that is nothing but the ending keeps it, unless it is
the whole path. -/
def baseNameWithout (ending path : String) : String :=
  let name := (baseName path).toList
  if path = ending then ""
  else if name ≠ ending.toList ∧ ending.toList.isSuffixOf name then
    String.ofList (name.take (name.length - ending.length))
  else String.ofList name

/-- What stands before the last part; the working directory when nothing does. -/
def directoryName (path : String) : String :=
  let trimmed := path.toList.reverse.dropWhile (· = '/')
  let before := (trimmed.dropWhile (· ≠ '/')).drop 1
  if before.isEmpty then (if startsInSlash path then "/" else ".")
  else String.ofList before.reverse

/-! ### Places -/

/-- The place where a path starts. -/
def start (path : String) : List String :=
  if startsInSlash path then ["/"] else []

/-- Whether a place is the working directory or lies above it. -/
def isAbove (place : List String) : Bool :=
  place = ["/"] || place.all (· = "..")

/-- The place one level up. The root has nothing above it. -/
def up (place : List String) : List String :=
  if place = ["/"] then place
  else if isAbove place then place ++ [".."]
  else place.dropLast

/-- One step of resolving dots by their meaning in the text alone. -/
def resolvePart (place : List String) (part : String) : List String :=
  if part = "." then place
  else if part = ".." then up place
  else place ++ [part]

/-- The place a path leads to by its text alone. -/
def resolve (path : String) : List String :=
  (parts path).foldl resolvePart (start path)

/-- The text of a place. -/
def join (place : List String) : String :=
  String.intercalate "/" place

/-- Whether the text of a place tells one outside the working directory. -/
def isOutside (text : String) : Bool :=
  startsInSlash text || Text.startsWith "../" text

end EightBit.Files.Path
