/-
Where a run can write. The only cell a step can write to is the one below the stack pointer it
starts from. So as long as the pointer stays in a band, everything outside the band is kept,
whatever the run executes and however it ends. A program whose run keeps the pointer above its own
last byte therefore never changes its own code.
-/

import EightBit.Proofs.Commands
import EightBit.Proofs.SavedValues

namespace EightBit

variable {Host : Type}

/-! ### Runs under a condition -/

/-- One step, with whatever devices, from a machine that meets a condition. The step may fail; a
machine that has failed takes further steps as a halted one. -/
def StepsFrom (condition : Machine → Prop) (before after : Session Host) : Prop :=
  condition before.machine ∧ ∃ devices, stateLeft (step devices before) = after

/-- The stack pointer lies above one bound, and at another or below. -/
def Machine.PointsInto (low high : Int) (machine : Machine) : Prop :=
  low < machine.pointer ∧ machine.pointer ≤ high

/-- An address that no push from within the bounds can reach. -/
def OutOfReach (low high : Int) (place : Nat) : Prop :=
  place < low ∨ high ≤ place

theorem Memory.read_congr {memory other : Memory} {place : Nat} (size : memory.size = other.size)
    (cell : memory.cellOrZero place = other.cellOrZero place) :
    memory.read (.ofNat place) = other.read (.ofNat place) := by
  rw [read_eq_checked, read_eq_checked, cell]
  unfold outside
  rw [size]

/-! ### Confinement -/

theorem read_of_stepsFrom {low high : Int} {before after : Session Host} {place : Nat}
    (stepped : StepsFrom (Machine.PointsInto low high) before after)
    (outside : OutOfReach low high place) :
    after.machine.memory.read (.ofNat place) = before.machine.memory.read (.ofNat place) := by
  obtain ⟨⟨above, below⟩, devices, rfl⟩ := stepped
  refine Memory.read_congr (step_size devices before) ?_
  refine step_cellOrZero devices before place ?_
  show place + 1 ≠ before.machine.pointer
  rcases outside with lower | higher <;> omega

theorem read_of_run {low high : Int} {first last : Session Host} {place : Nat}
    (run : Relation.ReflTransGen (StepsFrom (Machine.PointsInto low high)) first last)
    (outside : OutOfReach low high place) :
    last.machine.memory.read (.ofNat place) = first.machine.memory.read (.ofNat place) := by
  induction run with
  | refl => rfl
  | tail _ stepped inductionHypothesis =>
    exact (read_of_stepsFrom stepped outside).trans inductionHypothesis

theorem size_of_run {condition : Machine → Prop} {first last : Session Host}
    (run : Relation.ReflTransGen (StepsFrom condition) first last) :
    last.machine.memory.size = first.machine.memory.size := by
  induction run with
  | refl => rfl
  | tail _ stepped inductionHypothesis =>
    obtain ⟨-, devices, rfl⟩ := stepped
    exact (step_size devices _).trans inductionHypothesis

theorem pointsInto_of_lt {machine : Machine} {low : Nat} (above : low < machine.pointer) :
    machine.PointsInto low 255 := by
  have bound : machine.pointer < 256 := machine.registers.stackPointer.toNat_lt
  exact ⟨by omega, by omega⟩

/-- Right after a load the program is found in memory. -/
theorem Machine.read_loaded {machine : Machine} {program : List UInt8} {place : Nat} {byte : UInt8}
    (fits : program.length ≤ machine.memory.size) (written : program[place]? = some byte) :
    (machine.loaded program).memory.read (.ofNat place) = .ok byte := by
  have room : 0 + program.length ≤ machine.memory.clear.cells.size := by
    rw [Nat.zero_add]
    exact Nat.le_trans fits (Nat.le_of_eq (Memory.size_blank _).symm)
  have cell := Memory.getElem?_overlay machine.memory.clear.cells written room
  rw [Nat.zero_add] at cell
  obtain ⟨inside, value⟩ := Array.getElem?_eq_some_iff.mp cell
  rw [Memory.read_ofNat]
  exact (dif_pos inside).trans (congrArg Except.ok value)

/-- Outside the band in which a run keeps the stack pointer, memory stays as it is; and a program
that keeps the pointer above its own length keeps its own code. -/
theorem run_confined :
    (∀ (low high : Int) (first last : Session Host),
      Relation.ReflTransGen (StepsFrom (Machine.PointsInto low high)) first last →
        last.machine.memory.size = first.machine.memory.size ∧
        ∀ place : Nat, OutOfReach low high place →
          last.machine.memory.read (.ofNat place) = first.machine.memory.read (.ofNat place)) ∧
    ∀ (program : List UInt8) (machine : Machine) (first last : Session Host),
      Machine.load program machine = .ok () first.machine →
      Relation.ReflTransGen (StepsFrom fun machine => program.length < machine.pointer)
        first last →
      ∀ (place : Nat) (byte : UInt8), program[place]? = some byte →
        last.machine.memory.read (.ofNat place) = .ok byte := by
  constructor
  · intro low high first last run
    exact ⟨size_of_run run, fun place outside => read_of_run run outside⟩
  · intro program machine first last accepted run place byte written
    obtain ⟨fits, loaded⟩ := Machine.eq_loaded_of_load accepted
    have short : place < program.length := (List.getElem?_eq_some_iff.mp written).1
    -- no pointer is above 255, so the run stays in the band from the program's end up to there
    have banded : Relation.ReflTransGen (StepsFrom (Machine.PointsInto program.length 255))
        first last :=
      Relation.ReflTransGen.mono
        (fun _ _ stepped => ⟨pointsInto_of_lt stepped.1, stepped.2⟩) _ _ run
    rw [read_of_run banded (Or.inl (Int.ofNat_lt.mpr short)), loaded]
    exact Machine.read_loaded fits written

/-- A program that pushes a register and then pops into one that does not exist. -/
def pushThenSpoil : List UInt8 :=
  [0x45, 0, 0x46, 9]

/-- Its session after the load. -/
def spoilStart : Session Unit where
  machine := (Machine.create (.blank 256)).loaded pushThenSpoil
  host := ()

/-- Its session after the push and the pop that fails. -/
def spoilEnd : Session Unit :=
  stateLeft (step silentDevices (stateLeft (step silentDevices spoilStart)))

/-- The pop has failed and the pushed value is still there; the cell above it and the code are as
they were. -/
theorem spoilEnd_confined :
    spoilEnd.machine.halted = true ∧ spoilEnd.machine.pointer = 254 ∧
      spoilEnd.machine.memory.read (.ofNat 255) = spoilStart.machine.memory.read (.ofNat 255) ∧
      spoilEnd.machine.memory.read (.ofNat 3) = .ok 9 := by
  have first : spoilStart.machine.pointer = 255 := by decide +kernel
  have second : (stateLeft (step silentDevices spoilStart)).machine.pointer = 254 := by
    decide +kernel
  have accepted : Machine.load pushThenSpoil (Machine.create (.blank 256)) =
      .ok () spoilStart.machine :=
    Machine.load_of_fits (by decide +kernel) (by decide)
  have banded : Relation.ReflTransGen (StepsFrom (Machine.PointsInto 253 255))
      spoilStart spoilEnd :=
    .head ⟨⟨by omega, by omega⟩, silentDevices, rfl⟩
      (.single ⟨⟨by omega, by omega⟩, silentDevices, rfl⟩)
  have above : Relation.ReflTransGen
      (StepsFrom fun machine => pushThenSpoil.length < machine.pointer) spoilStart spoilEnd :=
    .head ⟨Nat.lt_of_lt_of_eq (by decide) first.symm, silentDevices, rfl⟩
      (.single ⟨Nat.lt_of_lt_of_eq (by decide) second.symm, silentDevices, rfl⟩)
  exact ⟨by decide +kernel, by decide +kernel,
    (run_confined.1 253 255 _ _ banded).2 255 (Or.inr (by decide)),
    run_confined.2 pushThenSpoil _ _ _ accepted above 3 9 rfl⟩

end EightBit
