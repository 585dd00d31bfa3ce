/-
Texts shown between quotes inside a message. The quotes are single where the text has none of them,
else the first of double quotes and backquotes that it can do without. What cannot be seen is
escaped, and a text that is too long is cut off.
-/

import EightBit.Text.Hex

namespace EightBit.Text

/-- How many sixteen-bit units a character takes. -/
def units (char : Char) : Nat :=
  if 0xFFFF < char.toNat then 2 else 1

def unitLength (text : List Char) : Nat :=
  text.foldl (fun length char => length + units char) 0

/-- The characters that fit into a number of units. -/
def takeUnits : Nat → List Char → List Char
  | _, [] => []
  | room, char :: rest =>
    if units char ≤ room then char :: takeUnits (room - units char) rest else []

/-! ### Quotes -/

/-- Whether a text has two characters in a row. -/
def hasPair (first second : Char) : List Char → Bool
  | left :: right :: rest => left = first && right = second || hasPair first second (right :: rest)
  | _ => false

/-- The quote a text is shown in. -/
def quoteFor (text : List Char) : Char :=
  if !text.contains '\x27' then '\x27'
  else if !text.contains '"' then '"'
  else if !text.contains '\x60' && !hasPair '$' '\x7b' text then '\x60'
  else '\x27'

/-- A character as it is shown between quotes. -/
def shownChar (quote char : Char) : List Char :=
  match char with
  | '\x08' => ['\\', 'b']
  | '\t' => ['\\', 't']
  | '\n' => ['\\', 'n']
  | '\x0c' => ['\\', 'f']
  | '\r' => ['\\', 'r']
  | '\\' => ['\\', '\\']
  | other =>
    if other = '\x27' && quote = '\x27' then ['\\', '\x27']
    else if other.toNat < 0x20 || (0x7F ≤ other.toNat && other.toNat ≤ 0x9F) then
      '\\' :: 'x' :: (hexByte (UInt8.ofNat other.toNat)).toList
    else [other]

/-- One piece of text between its quotes. -/
def shownPiece (text : List Char) : List Char :=
  let quote := quoteFor text
  quote :: text.flatMap (shownChar quote) ++ [quote]

/-! ### Long texts -/

/-- The pieces of a text, each ending after a line feed. -/
def pieces : List Char → List (List Char)
  | [] => [[]]
  | '\n' :: [] => [['\n']]
  | '\n' :: rest => ['\n'] :: pieces rest
  | char :: rest =>
    match pieces rest with
    | [] => [[char]]
    | piece :: more => (char :: piece) :: more

/-- The longest text that is shown as one piece. -/
def onePiece : Nat :=
  124

/-- How much of a shown text is kept. -/
def shownAtMost : Nat :=
  128

/-- A text between quotes, line by line when it is long. -/
def shownWhole (text : List Char) : List Char :=
  if onePiece < unitLength text then
    List.intercalate [' ', '+', '\n', ' ', ' '] ((pieces text).map shownPiece)
  else shownPiece text

/-- A text between quotes, cut off where it gets too long. -/
def shown (text : String) : String :=
  let whole := shownWhole text.toList
  if shownAtMost < unitLength whole then
    String.ofList (takeUnits shownAtMost whole ++ ['.', '.', '.'])
  else String.ofList whole

end EightBit.Text
