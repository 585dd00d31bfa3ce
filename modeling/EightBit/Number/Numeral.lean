/-
Reading whole numbers from text. A numeral may be followed by anything: only the digits that lead
the text count, after blanks and one sign.
-/

import EightBit.Number.Rounding
import EightBit.Text.Blank

namespace EightBit

def isDigit (char : Char) : Bool :=
  '0' ≤ char && char ≤ '9'

/-- The value of decimal digits, most significant first. -/
def digitsValue (digits : List Char) : Nat :=
  digits.foldl (fun value digit => 10 * value + (digit.toNat - 48)) 0

/-- Whether a text consists of digits and has at least one. -/
def isNumeral (text : String) : Bool :=
  !text.isEmpty && text.toList.all isDigit

namespace Number

/-- The number that unsigned digits leading a text spell, or none without a digit. -/
def ofDigits (text : List Char) : Number :=
  match text.takeWhile isDigit with
  | [] => .nan
  | digits => nearest (digitsValue digits)

/-- The whole number that leads a text, after blanks and an optional sign. -/
def ofNumeral (text : String) : Number :=
  match Text.trimLeft text.toList with
  | '-' :: rest => (ofDigits rest).neg
  | '+' :: rest => ofDigits rest
  | rest => ofDigits rest

end Number

end EightBit
