/-
Pictures as PNG streams. The pixel rows are stored without compression, which every reader accepts.
-/

import EightBit.Image

namespace EightBit.Image

/-- The four bytes of a number, most significant first. -/
def bigEndian (value : UInt32) : List UInt8 :=
  [(value >>> 24).toUInt8, (value >>> 16).toUInt8, (value >>> 8).toUInt8, value.toUInt8]

/-- A chunk: length, name, data, and the checksum of name and data. -/
def chunk (name : String) (data : List UInt8) : List UInt8 :=
  let named := name.toUTF8.toList ++ data
  bigEndian (UInt32.ofNat data.length) ++ named ++ bigEndian (Checksum.ofBytes named)

/-- The two running sums that close a compressed stream. -/
def adlerStep (sums : Nat × Nat) (byte : UInt8) : Nat × Nat :=
  let low := (sums.1 + byte.toNat) % 65521
  (low, (sums.2 + low) % 65521)

def adler (bytes : List UInt8) : UInt32 :=
  let (low, high) := bytes.foldl adlerStep (1, 0)
  UInt32.ofNat (65536 * high + low)

/-- The most bytes a stored block can hold. -/
def blockSize : Nat :=
  65535

/-- A stored block: whether it is the last, its length twice (once complemented), its bytes. -/
def storedBlock (last : Bool) (bytes : List UInt8) : List UInt8 :=
  let low := UInt8.ofNat (bytes.length % 256)
  let high := UInt8.ofNat (bytes.length / 256)
  (if last then 1 else 0) :: low :: high :: ~~~low :: ~~~high :: bytes

/-- Bytes as stored blocks. Each block but the last is full. -/
def storedBlocks : Nat → List UInt8 → List UInt8
  | 0, bytes => storedBlock true bytes
  | blocks + 1, bytes =>
    storedBlock false (bytes.take blockSize) ++ storedBlocks blocks (bytes.drop blockSize)

/-- A stream that holds bytes uncompressed. -/
def storedStream (bytes : List UInt8) : List UInt8 :=
  0x78 :: 0x01 :: storedBlocks ((bytes.length - 1) / blockSize) bytes ++ bigEndian (adler bytes)

/-- The pixel rows, each led by the mark of an unfiltered row. -/
def rows (image : Image) : List UInt8 :=
  (List.range image.height).flatMap fun y =>
    0 :: (image.pixels.extract (4 * image.width * y) (4 * image.width * (y + 1))).toList

def signature : List UInt8 :=
  [0x89, 0x50, 0x4E, 0x47, 0x0D, 0x0A, 0x1A, 0x0A]

/-- Size, eight bits a channel, four channels, and the standard methods. -/
def header (image : Image) : List UInt8 :=
  bigEndian (UInt32.ofNat image.width) ++ bigEndian (UInt32.ofNat image.height) ++ [8, 6, 0, 0, 0]

/-- The picture as a PNG stream. -/
def png (image : Image) : List UInt8 :=
  signature ++ chunk "IHDR" image.header ++ chunk "IDAT" (storedStream image.rows) ++
    chunk "IEND" []

end EightBit.Image
