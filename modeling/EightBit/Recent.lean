/-
The addresses executed last, in a ring of thirty-two slots. Entry `i` of the log is kept in slot
`i` modulo thirty-two until a later entry takes the slot; forgetting resets the count and leaves
the slots as they are.
-/

import EightBit.Number.Rounding

namespace EightBit

structure Recent where
  slots : Vector Nat 32
  recorded : Nat
  deriving DecidableEq, Repr

namespace Recent

def empty : Recent :=
  ⟨Vector.replicate 32 0, 0⟩

def record (recent : Recent) (address : Nat) : Recent :=
  { slots := recent.slots.set (recent.recorded % 32) address (Nat.mod_lt _ (by decide))
    recorded := recent.recorded + 1 }

def forget (recent : Recent) : Recent :=
  { recent with recorded := 0 }

/-- The slot of a log position: its integer part modulo thirty-two. -/
def slot (recent : Recent) (position : Number) : Nat :=
  recent.slots[(position.toInt32 % 32).toNat]?.getD 0

/-- The entries from a position up to the end of the log, one for each whole step. -/
def entriesFrom (recent : Recent) : Nat → Number → List Nat
  | 0, _ => []
  | turns + 1, position =>
    if position.lt (.ofNat recent.recorded) then
      recent.slot position :: recent.entriesFrom turns (position.add (.ofNat 1))
    else []

/-- The last entries of a log, oldest first, for a number of them that the ring can hold. -/
def lastEntries (recent : Recent) (count : Nat) : List Nat :=
  (List.range' (recent.recorded - count) count).map fun place =>
    recent.slots[place % 32]?.getD 0

/-- Up to `count` of the last entries, oldest first. No more than the ring holds are left, and a
count that is no number yields none. A whole number of entries is counted back from the end; what is
left of a fraction leads to a position between two entries, rounded like every difference. -/
def last (recent : Recent) (count : Number) : List Nat :=
  let wanted := (count.min (.ofNat 32)).min (.ofNat recent.recorded)
  match wanted.index? 33 with
  | some whole => recent.lastEntries whole
  | none => recent.entriesFrom 33 ((Number.ofNat recent.recorded).sub wanted)

/-- How many entries reports show. -/
def reported : Number :=
  .ofNat 8

end Recent

end EightBit
