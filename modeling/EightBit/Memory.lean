/-
Byte-addressed memory. Every access is checked against the size and nothing wraps: an address is
valid when it is an integer from zero up to the size.
-/

import EightBit.Fault

namespace EightBit

/-- A row of byte cells. -/
structure Memory where
  cells : Array UInt8
  deriving DecidableEq, Repr

namespace Memory

abbrev size (memory : Memory) : Nat :=
  memory.cells.size

/-- The size of a memory unless another is asked for. -/
def standardSize : Nat :=
  256

/-- Memory of the given size, all zero. -/
def blank (size : Nat) : Memory :=
  ⟨Array.replicate size 0⟩

theorem size_blank (size : Nat) : (blank size).size = size :=
  Array.size_replicate

/-- The largest length a row of cells may be asked to have. -/
def greatestLength : Int :=
  9007199254740991

/-- The largest length there is room for. -/
def room : Nat :=
  4294967296

/-- Memory of a size given as a number: the integer part counts, it must not be negative, and there
must be room for it. -/
def ofSize : Number → Except Fault Memory
  | .infinite negative => .error (.range (.length (.infinite negative)))
  | size =>
    if 0 ≤ size.truncate ∧ size.truncate ≤ greatestLength then
      if size.truncate.toNat ≤ room then .ok (blank size.truncate.toNat)
      else .error (.range .room)
    else .error (.range (.length size))

/-! ### Addresses -/

def isValid (memory : Memory) (address : Number) : Bool :=
  (address.index? memory.size).isSome

/-- The cell an address names, or the fault of naming none. -/
def locate (memory : Memory) (address : Number) (access : Access) :
    Except Fault (Fin memory.size) :=
  match address.index? memory.size with
  | some index => .ok index
  | none => .error (.address address access (.ofNat memory.size))

/-! ### Cells -/

def cell (memory : Memory) (index : Fin memory.size) : UInt8 :=
  memory.cells[index]

def read (memory : Memory) (address : Number) : Except Fault UInt8 := do
  let index ← memory.locate address .read
  return memory.cell index

theorem read_ofNat (memory : Memory) (address : Nat) :
    memory.read (.ofNat address) =
      if inside : address < memory.size then .ok (memory.cell ⟨address, inside⟩)
      else .error (.address (.ofNat address) .read (.ofNat memory.size)) := by
  unfold read locate
  rw [Number.index?_ofNat]
  by_cases inside : address < memory.size
  · rw [dif_pos inside, dif_pos inside]
    rfl
  · rw [dif_neg inside, dif_neg inside]
    rfl

/-- Stores the low byte of a value. -/
def write (memory : Memory) (address value : Number) : Except Fault Memory := do
  let index ← memory.locate address .write
  return ⟨memory.cells.set index value.toByte index.isLt⟩

/-- The cell at an address, or zero outside memory. Never fails. -/
def cellOrZero (memory : Memory) (address : Nat) : UInt8 :=
  memory.cells[address]?.getD 0

/-! ### Whole contents -/

/-- Replaces the cells from `start` on; what would lie outside is dropped. -/
def overlay (cells : Array UInt8) (start : Nat) : List UInt8 → Array UInt8
  | [] => cells
  | byte :: rest => overlay (cells.setIfInBounds start byte) (start + 1) rest

theorem size_overlay (cells : Array UInt8) (start : Nat) (data : List UInt8) :
    (overlay cells start data).size = cells.size := by
  induction data generalizing cells start with
  | nil => rfl
  | cons byte rest inductionHypothesis =>
    rw [overlay, inductionHypothesis, Array.size_setIfInBounds]

/-- Copies data to an offset. The bound is tested on the offset as given, the copy starts at its
integer part; an offset that is no number passes the test and counts as zero. -/
def load (memory : Memory) (data : List UInt8) (offset : Number) : Except Fault Memory :=
  let reach := offset.add (.ofNat data.length)
  if offset.lt (.ofNat 0) || (Number.ofNat memory.size).lt reach then
    .error (.load (.doesNotFit data.length offset memory.size) none)
  else if memory.size < offset.truncate.toNat + data.length then
    .error (.range .offset)
  else
    .ok ⟨overlay memory.cells offset.truncate.toNat data⟩

def clear (memory : Memory) : Memory :=
  blank memory.size

def toList (memory : Memory) : List UInt8 :=
  memory.cells.toList

end Memory

end EightBit
