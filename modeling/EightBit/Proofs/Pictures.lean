/-
A picture shows memory exactly. Painting goes square by square and the pixels are numbered row by
row, so the two orders have to be matched: a pixel's row and column, divided by the side of a
square, give the square and the place in it, and every pixel is reached from one place only. As long
as the picture has at most 2^31 bytes no position wraps, so each pixel gets the four bytes of its
own cell and of no other. The corners of the squares then give the cells back.
-/

import EightBit.Image
import Mathlib.Algebra.Group.Nat.Defs
import Mathlib.Data.List.Nodup
import Mathlib.Data.List.Perm.Subperm

namespace EightBit.Image

/-! ### Rows and columns -/

theorem place_lt {count width row column : Nat} (above : row < count) (inside : column < width) :
    row * width + column < count * width := by
  have next : row * width + column < (row + 1) * width := by
    rw [Nat.succ_mul]
    exact Nat.add_lt_add_left inside _
  exact Nat.lt_of_lt_of_le next (Nat.mul_le_mul_right width above)

theorem place_div {width column : Nat} (row : Nat) (inside : column < width) :
    (row * width + column) / width = row := by
  rw [Nat.mul_comm, Nat.mul_add_div (Nat.zero_lt_of_lt inside), Nat.div_eq_of_lt inside,
    Nat.add_zero]

theorem place_mod {width column : Nat} (row : Nat) (inside : column < width) :
    (row * width + column) % width = column := by
  rw [Nat.mul_comm, Nat.mul_add_mod, Nat.mod_eq_of_lt inside]

/-- Rows of one length, read one after the other. -/
theorem flatMap_rows {Value : Type} (value : Nat → Value) (rows columns : Nat) :
    ((List.range rows).flatMap fun y => (List.range columns).map fun x => value (columns * y + x)) =
      (List.range (columns * rows)).map value := by
  induction rows with
  | zero => rfl
  | succ rows inductionHypothesis =>
    rw [List.range_succ, List.flatMap_append, inductionHypothesis, Nat.mul_succ, List.range_add,
      List.map_append, List.map_map, List.flatMap_singleton]
    rfl

/-- The pixels of a picture, counted. -/
def area (side : Nat) : Nat :=
  grid * side * (grid * side)

/-- The cell that a pixel shows. Pixels are numbered row by row. -/
def cellAt (side pixel : Nat) : Nat :=
  grid * (pixel / (grid * side) / side) + pixel % (grid * side) / side

/-- The number of the pixel at a place within a square. -/
def pixelAt (side x y dx dy : Nat) : Nat :=
  (y * side + dy) * (grid * side) + (x * side + dx)

section

variable {side x y dx dy : Nat} (left : x < grid) (top : y < grid) (column : dx < side)
  (row : dy < side)

include left top column row

theorem pixelAt_lt : pixelAt side x y dx dy < area side :=
  place_lt (place_lt top row) (place_lt left column)

omit top in
theorem cellAt_pixelAt : cellAt side (pixelAt side x y dx dy) = y * grid + x := by
  have across := place_lt left column
  unfold cellAt pixelAt
  rw [place_div _ across, place_mod _ across, place_div y row, place_div x column, Nat.mul_comm]

end

theorem exists_pixelAt {side pixel : Nat} (inside : pixel < area side) :
    ∃ y < grid, ∃ x < grid, ∃ dy < side, ∃ dx < side, pixelAt side x y dx dy = pixel := by
  have wide : 0 < grid * side := Nat.pos_of_mul_pos_left (Nat.zero_lt_of_lt inside)
  have positive : 0 < side := Nat.pos_of_mul_pos_left wide
  have row : pixel / (grid * side) < grid * side := (Nat.div_lt_iff_lt_mul wide).mpr inside
  have column : pixel % (grid * side) < grid * side := Nat.mod_lt _ wide
  refine ⟨pixel / (grid * side) / side, (Nat.div_lt_iff_lt_mul positive).mpr row,
    pixel % (grid * side) / side, (Nat.div_lt_iff_lt_mul positive).mpr column,
    pixel / (grid * side) % side, Nat.mod_lt _ positive,
    pixel % (grid * side) % side, Nat.mod_lt _ positive, ?_⟩
  unfold pixelAt
  rw [Nat.div_add_mod', Nat.div_add_mod', Nat.div_add_mod']

/-! ### Every pixel once -/

/-- The stroke that paints a pixel. -/
def strokeOf (side pixel : Nat) : Stroke where
  offset := 4 * pixel
  cell := cellAt side pixel

theorem strokeOf_injective (side : Nat) : Function.Injective (strokeOf side) :=
  fun _ _ same => Nat.eq_of_mul_eq_mul_left (by decide) (congrArg Stroke.offset same)

theorem mem_strokes {side : Nat} {painted : Stroke} :
    painted ∈ strokes side ↔
      ∃ y < grid, ∃ x < grid, ∃ dy < side, ∃ dx < side, stroke side x y dx dy = painted := by
  simp only [strokes, List.mem_flatMap, List.mem_map, List.mem_range]

theorem length_strokes (side : Nat) : (strokes side).length = area side := by
  have total : area side = grid * (grid * (side * side)) := by
    unfold area
    ac_rfl
  simp only [strokes, List.length_flatMap, List.length_map, List.length_range, List.map_const',
    List.sum_replicate_nat, total]

/-- No position wraps while the picture has at most 2^31 bytes. -/
theorem stroke_eq {side x y dx dy : Nat} (room : 4 * area side ≤ firstNegative) (left : x < grid)
    (top : y < grid) (column : dx < side) (row : dy < side) :
    stroke side x y dx dy = strokeOf side (pixelAt side x y dx dy) := by
  have inside := pixelAt_lt left top column row
  have offset : byteOffset (pixelAt side x y dx dy) = 4 * pixelAt side x y dx dy := by
    refine Nat.mod_eq_of_lt ?_
    unfold firstNegative at room
    omega
  unfold stroke strokeOf
  rw [cellAt_pixelAt left column row, ← offset]
  rfl

/-- The strokes are those of the pixels from the first to the last, in another order. -/
theorem strokes_perm {side : Nat} (room : 4 * area side ≤ firstNegative) :
    (strokes side).Perm ((List.range (area side)).map (strokeOf side)) := by
  have distinct : ((List.range (area side)).map (strokeOf side)).Nodup :=
    List.nodup_range.map (strokeOf_injective side)
  refine ((List.subperm_of_subset distinct fun painted member => ?_).perm_of_length_le ?_).symm
  · obtain ⟨pixel, listed, rfl⟩ := List.mem_map.mp member
    obtain ⟨y, top, x, left, dy, row, dx, column, rfl⟩ := exists_pixelAt (List.mem_range.mp listed)
    exact mem_strokes.mpr ⟨y, top, x, left, dy, row, dx, column,
      stroke_eq room left top column row⟩
  · refine Nat.le_of_eq ?_
    rw [length_strokes, List.length_map, List.length_range]

/-! ### Every byte once -/

/-- The bytes of an opaque grey pixel. -/
def channelOf (shade : UInt8) (channel : Nat) : UInt8 :=
  if channel < 3 then shade else 255

theorem mem_writes_strokeOf (cells : Array UInt8) (side pixel : Nat) {channel : Nat}
    (small : channel < 4) :
    ⟨4 * pixel + channel, channelOf (cells[cellAt side pixel]?.getD 0) channel⟩ ∈
      (strokeOf side pixel).writes cells := by
  have channels : channel = 0 ∨ channel = 1 ∨ channel = 2 ∨ channel = 3 := by omega
  rcases channels with rfl | rfl | rfl | rfl <;> simp [Stroke.writes, strokeOf, channelOf]

section

variable {side : Nat} (cells : Array UInt8) (room : 4 * area side ≤ firstNegative)

include room

/-- The bytes that are stored are those of the pixels from the first to the last, in another
order. -/
theorem writes_perm :
    (writes cells side).Perm
      ((List.range (area side)).flatMap fun pixel => (strokeOf side pixel).writes cells) := by
  have order := (strokes_perm room).flatMap_right (Stroke.writes cells)
  rw [List.flatMap_map] at order
  exact order

theorem offsets_perm :
    ((writes cells side).map Write.offset).Perm (List.range (4 * area side)) := by
  have listed : ((List.range (area side)).flatMap fun pixel =>
      (strokeOf side pixel).writes cells).map Write.offset = List.range (4 * area side) := by
    rw [List.map_flatMap]
    exact (flatMap_rows id (area side) 4).trans (List.map_id _)
  rw [← listed]
  exact (writes_perm cells room).map Write.offset

theorem mem_writes {pixel channel : Nat} (inside : pixel < area side) (small : channel < 4) :
    ⟨4 * pixel + channel, channelOf (cells[cellAt side pixel]?.getD 0) channel⟩ ∈
      writes cells side :=
  (writes_perm cells room).mem_iff.mpr (List.mem_flatMap.mpr
    ⟨pixel, List.mem_range.mpr inside, mem_writes_strokeOf cells side pixel small⟩)

end

/-! ### Storing bytes -/

section

variable {pixels : Array UInt8} {stored : List Write}

theorem size_apply (pixels : Array UInt8) (write : Write) :
    (write.apply pixels).size = pixels.size := by
  unfold Write.apply
  split
  · exact Array.size_setIfInBounds
  · rfl

theorem size_foldl_apply (stored : List Write) (pixels : Array UInt8) :
    (stored.foldl Write.apply pixels).size = pixels.size := by
  induction stored generalizing pixels with
  | nil => rfl
  | cons first rest inductionHypothesis =>
    rw [List.foldl_cons, inductionHypothesis, size_apply]

theorem getElem?_apply_ne {write : Write} {place : Nat} (apart : write.offset ≠ place) :
    (write.apply pixels)[place]? = pixels[place]? := by
  unfold Write.apply
  split
  · exact Array.getElem?_setIfInBounds_ne apart
  · rfl

theorem getElem?_apply_self {write : Write} (inside : write.offset < pixels.size)
    (room : pixels.size ≤ firstNegative) :
    (write.apply pixels)[write.offset]? = some write.value := by
  rw [Write.apply, if_pos (Nat.lt_of_lt_of_le inside room)]
  exact Array.getElem?_setIfInBounds_self_of_lt inside

/-- A place that nothing is stored at keeps its byte. -/
theorem getElem?_foldl_apply_of_not_mem {place : Nat}
    (unwritten : place ∉ stored.map Write.offset) :
    (stored.foldl Write.apply pixels)[place]? = pixels[place]? := by
  induction stored generalizing pixels with
  | nil => rfl
  | cons first rest inductionHypothesis =>
    rw [List.map_cons, List.mem_cons, not_or] at unwritten
    rw [List.foldl_cons, inductionHypothesis unwritten.2, getElem?_apply_ne (Ne.symm unwritten.1)]

/-- If no place is stored at twice, every byte that is stored inside the picture stays. -/
theorem getElem?_foldl_apply {write : Write} (listed : write ∈ stored)
    (distinct : (stored.map Write.offset).Nodup) (inside : write.offset < pixels.size)
    (room : pixels.size ≤ firstNegative) :
    (stored.foldl Write.apply pixels)[write.offset]? = some write.value := by
  induction stored generalizing pixels with
  | nil => cases listed
  | cons first rest inductionHypothesis =>
    have size := size_apply pixels first
    rw [List.map_cons, List.nodup_cons] at distinct
    rw [List.foldl_cons]
    rcases List.mem_cons.mp listed with rfl | later
    · rw [getElem?_foldl_apply_of_not_mem distinct.1, getElem?_apply_self inside room]
    · exact inductionHypothesis later distinct.2 (size ▸ inside) (size ▸ room)

end

/-! ### The whole picture -/

theorem size_ofCells (cells : List UInt8) (side : Nat) :
    (ofCells cells side).pixels.size = 4 * area side := by
  unfold ofCells
  simp only [size_foldl_apply, Array.size_replicate, area, Nat.mul_assoc]

theorem getElem?_ofCells (cells : List UInt8) {side pixel channel : Nat}
    (room : 4 * area side ≤ firstNegative) (inside : pixel < area side) (small : channel < 4) :
    (ofCells cells side).pixels[4 * pixel + channel]? =
      some (channelOf (cells[cellAt side pixel]?.getD 0) channel) := by
  have size : (Array.replicate (4 * (grid * side) * (grid * side)) (0 : UInt8)).size =
      4 * area side := by
    rw [Array.size_replicate, Nat.mul_assoc, area]
  have distinct := (offsets_perm cells.toArray room).nodup_iff.mpr List.nodup_range
  have stored := mem_writes cells.toArray room inside small
  rw [List.getElem?_toArray] at stored
  refine getElem?_foldl_apply stored distinct ?_ (size ▸ room)
  rw [size]
  show 4 * pixel + channel < 4 * area side
  omega

/-- A picture that has the cells in its squares, each pixel painted once and all of it opaque. -/
structure Shows (cells : List UInt8) (side : Nat) (image : Image) : Prop where
  width : image.width = 16 * side
  height : image.height = 16 * side
  /-- Four bytes for each pixel. -/
  size : image.pixels.size = 4 * image.width * image.height
  /-- The picture is what the bytes, stored one after the other, make of a blank one. -/
  written : image.pixels = (writes cells.toArray side).foldl Write.apply
    (Array.replicate (4 * image.width * image.height) 0)
  /-- No byte is stored outside the picture. -/
  inside : ∀ write ∈ writes cells.toArray side, write.offset < image.pixels.size
  /-- The strokes start at the pixels, each of which has one stroke. -/
  once : ((strokes side).map Stroke.offset).Perm
    ((List.range (image.width * image.height)).map (4 * ·))
  /-- Every byte of the picture is stored, and none a second time. -/
  everyByte : ((writes cells.toArray side).map Write.offset).Perm (List.range image.pixels.size)
  grey : ∀ x < image.width, ∀ y < image.height, ∀ channel < 3,
    image.pixels[4 * (y * image.width + x) + channel]? =
      some (cells[16 * (y / side) + x / side]?.getD 0)
  solid : ∀ x < image.width, ∀ y < image.height,
    image.pixels[4 * (y * image.width + x) + 3]? = some 255

theorem shows_ofCells (cells : List UInt8) {side : Nat} (room : 4 * area side ≤ firstNegative) :
    Shows cells side (ofCells cells side) := by
  have size := size_ofCells cells side
  have offsets := offsets_perm cells.toArray room
  have painted {x y : Nat} (across : x < grid * side) (down : y < grid * side) :
      ∀ channel < 4, (ofCells cells side).pixels[4 * (y * (grid * side) + x) + channel]? =
        some (channelOf (cells[grid * (y / side) + x / side]?.getD 0) channel) := by
    intro channel small
    rw [getElem?_ofCells cells room (place_lt down across) small, cellAt, place_div y across,
      place_mod y across]
  constructor
  case width | height => rfl
  case size => rw [size, Nat.mul_assoc]; rfl
  case written => rfl
  case inside =>
    intro write member
    rw [size]
    exact List.mem_range.mp (offsets.mem_iff.mp (List.mem_map_of_mem member))
  case once =>
    have starts := (strokes_perm room).map Stroke.offset
    rw [List.map_map] at starts
    exact starts
  case everyByte =>
    rw [size]
    exact offsets
  case grey =>
    intro x across y down channel small
    refine (painted across down channel (Nat.lt_succ_of_lt small)).trans ?_
    rw [channelOf, if_pos small]
    rfl
  case solid =>
    intro x across y down
    exact painted across down 3 (by decide)

/-! ### Reading a picture -/

/-- The first 256 cells, with zeros in place of those that are missing. -/
def padded (cells : List UInt8) : List UInt8 :=
  cells.take 256 ++ List.replicate (256 - cells.length) 0

theorem padded_eq_self {cells : List UInt8} (full : cells.length = 256) : padded cells = cells := by
  rw [padded, ← full, List.take_length, Nat.sub_self]
  exact List.append_nil cells

theorem padded_eq_map (cells : List UInt8) :
    padded cells = (List.range 256).map fun index => cells[index]?.getD 0 := by
  refine List.ext_getElem? fun index => ?_
  unfold padded
  rw [List.getElem?_append, List.getElem?_take, List.getElem?_replicate, List.getElem?_map,
    List.length_take]
  by_cases below : index < 256
  · rw [List.getElem?_range below, Option.map_some]
    by_cases filled : index < cells.length
    · rw [if_pos (by omega), if_pos below, List.getElem?_eq_getElem filled]
      rfl
    · rw [if_neg (by omega), if_pos (by omega), List.getElem?_eq_none (by omega)]
      rfl
  · rw [if_neg (by omega), if_neg (by omega), List.getElem?_eq_none (by simp; omega)]
    rfl

/-- The corners of the squares give the cells back. -/
theorem Shows.shades {cells : List UInt8} {side : Nat} {image : Image}
    (shown : Shows cells side image) (positive : 0 < side) : image.shades = padded cells := by
  have squares : image.width / grid = side := by
    rw [shown.width]
    exact Nat.mul_div_cancel_left side (by decide)
  have corner {x y : Nat} (left : x < grid) (top : y < grid) :
      image.red (x * side) (y * side) = cells[grid * y + x]?.getD 0 := by
    have across : x * side < image.width := by
      rw [shown.width]
      exact Nat.mul_lt_mul_of_pos_right left positive
    have down : y * side < image.height := by
      rw [shown.height]
      exact Nat.mul_lt_mul_of_pos_right top positive
    have grey := shown.grey _ across _ down 0 (by decide)
    rw [Nat.mul_div_cancel y positive, Nat.mul_div_cancel x positive, Nat.add_zero] at grey
    unfold red
    rw [grey]
    rfl
  have listed : ((List.range grid).flatMap fun y => (List.range grid).map fun x =>
      image.red (x * side) (y * side)) =
        (List.range grid).flatMap fun y => (List.range grid).map fun x =>
          cells[grid * y + x]?.getD 0 := by
    refine List.flatMap_congr fun y top => List.map_congr_left fun x left => ?_
    exact corner (List.mem_range.mp left) (List.mem_range.mp top)
  unfold Image.shades
  simp only [squares, if_neg (Nat.ne_of_gt positive), listed]
  rw [flatMap_rows fun index => cells[index]?.getD 0, padded_eq_map]
  rfl

theorem shades_congr {image other : Image} (width : image.width = other.width)
    (pixels : image.pixels = other.pixels) : image.shades = other.shades := by
  unfold shades red
  rw [width, pixels]

/-- There is room for a picture of at most 2^31 bytes. -/
theorem check_eq_ok {side : Nat} (positive : 1 ≤ side) (room : 4 * area side ≤ firstNegative) :
    check side = .ok () := by
  have extent : grid * side ≤ area side := Nat.le_mul_self _
  have width : widthOf side = (grid * side : Nat) := by
    unfold firstNegative at room
    exact Int.bmod_eq_of_le (by omega) (by omega)
  have size : 4 * widthOf side * widthOf side = (4 * area side : Nat) := by
    rw [width, area]
    push_cast
    ac_rfl
  have wide : 0 < grid * side := Nat.mul_pos (by decide) positive
  unfold firstNegative at room
  unfold check
  simp only [size]
  rw [if_neg (by omega), if_neg (by omega), if_neg (by unfold greatestSize; omega),
    if_neg (by unfold Image.room; omega)]

/-- A picture whose squares have a side that is not nothing and that has at most 2^31 bytes can be
drawn, and it is the memory: each pixel is written once and shows its cell, reading the corners of
the squares gives the first 256 cells back, and memories with the same pixels are the same. -/
theorem picture_is_memory (cells : List UInt8) (scale : Option Number) (positive : 1 ≤ side scale)
    (room : 4 * (16 * side scale) ^ 2 ≤ 2 ^ 31) :
    ∃ image, draw cells scale = .ok image ∧ Shows cells (side scale) image ∧
      image.shades = padded cells ∧
      ∀ others other, draw others scale = .ok other → other.pixels = image.pixels →
        padded others = padded cells ∧
          (others.length = 256 → cells.length = 256 → others = cells) := by
  have bytes : 4 * area (side scale) ≤ firstNegative := by
    rw [Nat.pow_two] at room
    exact room
  have drawn (others : List UInt8) : draw others scale = .ok (ofCells others (side scale)) := by
    unfold draw
    rw [check_eq_ok positive bytes]
  have shades (others : List UInt8) : (ofCells others (side scale)).shades = padded others :=
    (shows_ofCells others bytes).shades positive
  refine ⟨_, drawn cells, shows_ofCells cells bytes, shades cells, ?_⟩
  intro others other again same
  rw [drawn others] at again
  cases again
  have equal : padded others = padded cells := by
    rw [← shades others, ← shades cells]
    exact shades_congr rfl same
  refine ⟨equal, fun full filled => ?_⟩
  rw [padded_eq_self full, padded_eq_self filled] at equal
  exact equal

/-- Two cells in squares of the greatest side for which no position wraps. -/
theorem greatest_is_memory :
    ∃ image, draw [7, 9] (some (.ofNat 1448)) = .ok image ∧ Shows [7, 9] 1448 image ∧
      image.shades = 7 :: 9 :: List.replicate 254 0 := by
  have side : side (some (.ofNat 1448)) = 1448 := by decide +kernel
  obtain ⟨image, drawn, shown, shades, -⟩ :=
    picture_is_memory [7, 9] (some (.ofNat 1448)) (by rw [side]; decide) (by rw [side]; decide)
  rw [side] at shown
  exact ⟨image, drawn, shown, shades⟩

end EightBit.Image
