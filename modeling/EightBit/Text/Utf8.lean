/-
Bytes as text. Bytes that spell no character are replaced: each sequence that was begun well and
then broken off counts as one replacement character, and the byte that broke it is read afresh.
-/

namespace EightBit.Text.Utf8

def replacement : Char :=
  Char.ofNat 0xFFFD

/-- A character begun: how many bytes are missing, the range of the next, and the bits so far. -/
structure Pending where
  missing : Nat
  low : UInt8
  high : UInt8
  bits : Nat

/-- What a byte means at the start of a character. -/
inductive Opening where
  | complete (char : Char)
  | pending (pending : Pending)
  | invalid

/-- The ranges leave out overlong spellings, surrogates, and codes past the last character. -/
def opening (byte : UInt8) : Opening :=
  let code := byte.toNat
  if code < 0x80 then .complete (Char.ofNat code)
  else if code < 0xC2 then .invalid
  else if code < 0xE0 then .pending ⟨1, 0x80, 0xBF, code - 0xC0⟩
  else if code < 0xF0 then
    let low := if code = 0xE0 then 0xA0 else 0x80
    let high := if code = 0xED then 0x9F else 0xBF
    .pending ⟨2, low, high, code - 0xE0⟩
  else if code < 0xF5 then
    let low := if code = 0xF0 then 0x90 else 0x80
    let high := if code = 0xF4 then 0x8F else 0xBF
    .pending ⟨3, low, high, code - 0xF0⟩
  else .invalid

/-- The characters of bytes, after a character that may have been begun before them. -/
def decodeFrom : Option Pending → List UInt8 → List Char
  | none, [] => []
  | some _, [] => [replacement]
  | none, byte :: rest =>
    match opening byte with
    | .complete char => char :: decodeFrom none rest
    | .pending pending => decodeFrom (some pending) rest
    | .invalid => replacement :: decodeFrom none rest
  | some pending, byte :: rest =>
    if pending.low ≤ byte ∧ byte ≤ pending.high then
      let bits := 64 * pending.bits + (byte.toNat - 0x80)
      if pending.missing ≤ 1 then Char.ofNat bits :: decodeFrom none rest
      else decodeFrom (some ⟨pending.missing - 1, 0x80, 0xBF, bits⟩) rest
    else
      match opening byte with
      | .complete char => replacement :: char :: decodeFrom none rest
      | .pending fresh => replacement :: decodeFrom (some fresh) rest
      | .invalid => replacement :: replacement :: decodeFrom none rest

/-- The text of bytes. A byte order mark is kept as a character. -/
def decode (bytes : List UInt8) : String :=
  String.ofList (decodeFrom none bytes)

end EightBit.Text.Utf8
