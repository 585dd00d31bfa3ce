/-
CRC-32, the fingerprint of memories and pictures. The register is shifted right by one bit at a
time and takes the reflected polynomial whenever a one falls out; the table does eight such shifts
at once.
-/

import EightBit.Text.Hex

namespace EightBit.Checksum

/-- The polynomial, reflected. -/
def polynomial : UInt32 :=
  0xEDB88320

/-- One shift of the register. -/
def shift (register : UInt32) : UInt32 :=
  if register &&& 1 = 1 then polynomial ^^^ (register >>> 1) else register >>> 1

/-- Several shifts in a row. -/
def shifts : Nat → UInt32 → UInt32
  | 0, register => register
  | count + 1, register => shifts count (shift register)

/-- The effect of eight shifts on each value of the low byte. -/
def table : Vector UInt32 256 :=
  Vector.ofFn fun value : Fin 256 => shifts 8 (UInt32.ofNat value)

/-- The table entry of a byte. -/
def entry (byte : UInt8) : UInt32 :=
  table.get ⟨byte.toNat, byte.toNat_lt⟩

/-- Takes one byte of the message into the register. -/
def update (register : UInt32) (byte : UInt8) : UInt32 :=
  (register >>> 8) ^^^ entry (register.toUInt8 ^^^ byte)

/-- The register before the first byte: all ones. -/
def initial : UInt32 :=
  0xFFFFFFFF

/-- The checksum of a message: the final register, complemented. -/
def ofBytes (bytes : List UInt8) : UInt32 :=
  ~~~ bytes.foldl update initial

/-- The checksum of a message in an array. -/
def ofArray (bytes : Array UInt8) : UInt32 :=
  ~~~ bytes.foldl update initial

theorem ofArray_eq_ofBytes (bytes : Array UInt8) : ofArray bytes = ofBytes bytes.toList := by
  rw [ofArray, ofBytes, Array.foldl_toList]

/-- The checksum in eight capital digits. -/
def text (bytes : List UInt8) : String :=
  Text.hexWord (ofBytes bytes)

end EightBit.Checksum
