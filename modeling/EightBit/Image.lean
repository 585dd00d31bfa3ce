/-
Memory as a picture: sixteen by sixteen squares of grey, one for each cell, as bright as the cell's
value. The picture is a row of bytes, four to a pixel (red, green, blue, opacity), row by row from
the top.
-/

import EightBit.Checksum
import EightBit.Fault

namespace EightBit

structure Image where
  width : Nat
  height : Nat
  pixels : Array UInt8
  deriving DecidableEq, Repr

namespace Image

/-- How many squares a side of the picture has. -/
def grid : Nat :=
  16

/-- The side of a square in pixels unless another is asked for. -/
def standardSide : Nat :=
  8

/-- The side of a square, from the one asked for: at least one, taken as a 32-bit integer. When
that is not positive the picture has no pixels. -/
def side (scale : Option Number) : Nat :=
  ((Number.ofNat 1).max (scale.getD (.ofNat standardSide))).toInt32.toNat

/-- One pixel to paint: where its four bytes start, and the cell it shows. -/
structure Stroke where
  offset : Nat
  cell : Nat
  deriving DecidableEq, Repr

/-- The position of the first byte of a pixel, in 32 bits. -/
def byteOffset (pixel : Nat) : Nat :=
  4 * pixel % 4294967296

/-- Positions from here on stand for negative ones. -/
def firstNegative : Nat :=
  2147483648

/-- The pixel at a place within a square: column `x` and row `y` of the grid, column `dx` and row
`dy` of the square. -/
def stroke (side x y dx dy : Nat) : Stroke :=
  { offset := byteOffset ((y * side + dy) * (grid * side) + (x * side + dx))
    cell := y * grid + x }

/-- All pixels, square by square, in the order in which they are painted. -/
def strokes (side : Nat) : List Stroke :=
  (List.range grid).flatMap fun y =>
    (List.range grid).flatMap fun x =>
      (List.range side).flatMap fun dy =>
        (List.range side).map fun dx => stroke side x y dx dy

/-- One byte to store, and where. -/
structure Write where
  offset : Nat
  value : UInt8
  deriving DecidableEq, Repr

/-- The bytes of a pixel, opaque grey, in the order in which they are stored. Cells past the end of
the list are black. -/
def Stroke.writes (cells : Array UInt8) (stroke : Stroke) : List Write :=
  let shade := cells[stroke.cell]?.getD 0
  [⟨stroke.offset, shade⟩, ⟨stroke.offset + 1, shade⟩, ⟨stroke.offset + 2, shade⟩,
    ⟨stroke.offset + 3, 255⟩]

/-- All bytes that are stored, pixel by pixel. -/
def writes (cells : Array UInt8) (side : Nat) : List Write :=
  (strokes side).flatMap (Stroke.writes cells)

/-- Stores a byte. A position outside the picture, as all negative ones are, takes none. -/
def Write.apply (pixels : Array UInt8) (write : Write) : Array UInt8 :=
  if write.offset < firstNegative then pixels.setIfInBounds write.offset write.value else pixels

/-- The picture of a list of cells, with squares of the given side. -/
def ofCells (cells : List UInt8) (side : Nat) : Image :=
  let extent := grid * side
  { width := extent
    height := extent
    pixels := (writes cells.toArray side).foldl Write.apply
      (Array.replicate (4 * extent * extent) 0) }

/-! ### Room for a picture -/

/-- The greatest number of bytes a picture may be asked to have. -/
def greatestSize : Int :=
  9007199254740991

/-- The number of bytes there is room for. -/
def room : Int :=
  4294967296

/-- The width in pixels that squares of a side come to, as a signed 32-bit integer. -/
def widthOf (side : Nat) : Int :=
  ((grid * side : Nat) : Int).bmod 4294967296

/-- Whether a picture with squares of the given side can be had. -/
def check (side : Nat) : Except Fault Unit :=
  let width := widthOf side
  let size := 4 * width * width
  if side = 0 then .ok ()
  else if width ≤ 0 then .error .noPixels
  else if greatestSize < size then .error (.range (.bufferSize (.nearest size)))
  else if room < size then .error (.range .room)
  else .ok ()

/-- The picture of a list of cells at the scale asked for. -/
def draw (cells : List UInt8) (scale : Option Number) : Except Fault Image :=
  match check (side scale) with
  | .error fault => .error fault
  | .ok _ => .ok (ofCells cells (side scale))

/-! ### Reading a picture -/

def checksum (image : Image) : UInt32 :=
  Checksum.ofArray image.pixels

/-- The red value of a pixel. -/
def red (image : Image) (x y : Nat) : UInt8 :=
  image.pixels[4 * (y * image.width + x)]?.getD 0

/-- The shades of the squares, read at the corner of each. A picture without pixels has none. -/
def shades (image : Image) : List UInt8 :=
  let side := image.width / grid
  if side = 0 then []
  else
    (List.range grid).flatMap fun y =>
      (List.range grid).map fun x => image.red (x * side) (y * side)

end Image

end EightBit
