/-
Bytes and words as digits: two hexadecimal digits for a byte, eight for a word, eight binary digits
for a byte of program text.
-/

namespace EightBit.Text

/-- The hexadecimal digit of a value below sixteen, in capitals. -/
def hexDigit (value : Nat) : Char :=
  if value < 10 then Char.ofNat (48 + value) else Char.ofNat (55 + value)

/-- The two hexadecimal digits of a byte. -/
def hexByte (byte : UInt8) : String :=
  String.ofList [hexDigit (byte.toNat / 16), hexDigit (byte.toNat % 16)]

/-- The hexadecimal digits of bytes, with a blank between two of them. -/
def hexBytes (bytes : List UInt8) : String :=
  String.intercalate " " (bytes.map hexByte)

/-- The eight hexadecimal digits of a word. -/
def hexWord (word : UInt32) : String :=
  hexByte (word >>> 24).toUInt8 ++ hexByte (word >>> 16).toUInt8 ++
    hexByte (word >>> 8).toUInt8 ++ hexByte word.toUInt8

/-- The eight binary digits of a byte, most significant first. -/
def binaryByte (byte : UInt8) : List Char :=
  [7, 6, 5, 4, 3, 2, 1, 0].map fun place =>
    if byte.toNat.testBit place then '1' else '0'

end EightBit.Text
