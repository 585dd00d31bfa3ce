/-
Quoted text: between double quotes, with quotes, backslashes and control characters escaped.
-/

import EightBit.Text.Hex

namespace EightBit.Text

/-- The escape of a control character by its code, in four small hexadecimal digits. -/
def escapeCode (char : Char) : List Char :=
  '\\' :: 'u' :: '0' :: '0' :: (hexByte (UInt8.ofNat char.toNat)).toList.map Char.toLower

def escape (char : Char) : List Char :=
  match char with
  | '"' => ['\\', '"']
  | '\\' => ['\\', '\\']
  | '\n' => ['\\', 'n']
  | '\r' => ['\\', 'r']
  | '\t' => ['\\', 't']
  | '\x08' => ['\\', 'b']
  | '\x0c' => ['\\', 'f']
  | other => if other.toNat < 0x20 then escapeCode other else [other]

def quoted (text : String) : String :=
  String.ofList ('"' :: text.toList.flatMap escape ++ ['"'])

end EightBit.Text
