/-
Arithmetic modulo 256, from one operation to whole calculations. The unit computes with rounded sums
and with products of 32-bit integers, and registers keep low bytes only. None of this loses more
than multiples of 256 as long as the operands are integers up to 2^52: a sum of two of them is no
larger than 2^53 and still has a number of its own. Reduction modulo 256 therefore commutes with
every operation, and with every calculation that keeps its values in registers: it may be carried
out on integers of any size and reduced at the end.
-/

import EightBit.Proofs.Integers
import EightBit.Registers
import Mathlib.Logic.Function.Basic

namespace EightBit

/-! ### Residues of one operation -/

namespace Operation

/-- The word that selects an operation. -/
def selector : Operation → String
  | .add => "ADD"
  | .subtract => "SUB"
  | .multiply => "MUL"

theorem compute_selector (operation : Operation) (left right : Number) :
    compute operation.selector left right = .ok (operation.apply left right) := by
  cases operation <;> rfl

/-- On integers the residue of a result depends on the residues of the operands only. -/
theorem onIntegers_emod (operation : Operation) {left right other another : Int}
    (first : other % 256 = left % 256) (second : another % 256 = right % 256) :
    operation.onIntegers other another % 256 = operation.onIntegers left right % 256 := by
  cases operation with
  | add => rw [onIntegers, onIntegers, Int.add_emod, first, second, ← Int.add_emod]
  | subtract => rw [onIntegers, onIntegers, Int.sub_emod, first, second, ← Int.sub_emod]
  | multiply => rw [onIntegers, onIntegers, Int.mul_emod, first, second, ← Int.mul_emod]

/-- The unit takes low bytes for the integers they were cut from. -/
theorem apply_lowByte (operation : Operation) (left right : Int) :
    operation.apply (.ofByte (lowByte left)) (.ofByte (lowByte right)) =
      lowByte (operation.onIntegers left right) := by
  have reduced (value : Int) : ((lowByte value).toNat : Int) % 256 = value % 256 := by
    rw [toNat_lowByte]
    omega
  rw [apply_ofByte, lowByte_eq_iff]
  exact operation.onIntegers_emod (reduced left) (reduced right)

end Operation

/-! ### Registers -/

namespace Registers

theorem locate_ofNat (index : Fin 8) : locate (.ofNat index) = .ok index := by
  unfold locate
  rw [Number.index?_ofNat, dif_pos index.isLt]

theorem get_ofNat (registers : Registers) (index : Fin 8) :
    registers.get (.ofNat index) = .ok (registers.values.get index) := by
  unfold get
  rw [locate_ofNat]
  rfl

theorem set_ofNat (registers : Registers) (index : Fin 8) (value : Number) :
    registers.set (.ofNat index) value =
      .ok ⟨registers.values.set index value.toByte index.isLt⟩ := by
  unfold set
  rw [locate_ofNat]
  rfl

/-- The registers hold eight integers, each reduced modulo 256. -/
def HoldResidues (registers : Registers) (values : Fin 8 → Int) : Prop :=
  ∀ index : Fin 8, registers.get (.ofNat index) = .ok (lowByte (values index))

variable {registers : Registers} {values : Fin 8 → Int}

/-- A register that is set to an integer, or to a byte with the same residue, holds it reduced. -/
theorem HoldResidues.set (held : registers.HoldResidues values) (target : Fin 8) {value : Number}
    {integer : Int} (reduced : value.toByte = lowByte integer) :
    ∃ after, registers.set (.ofNat target) value = .ok after ∧
      after.HoldResidues (Function.update values target integer) := by
  refine ⟨_, registers.set_ofNat target value, fun index => ?_⟩
  rw [get_ofNat]
  show Except.ok (registers.values.set target value.toByte)[index.val] = _
  by_cases same : index = target
  · rw [same, Function.update_self, Vector.getElem_set_self, reduced]
  · have different : target.val ≠ index.val := fun equal => same (Fin.ext equal.symm)
    rw [Function.update_of_ne same, Vector.getElem_set_ne _ _ different]
    exact (registers.get_ofNat index).symm.trans (held index)

end Registers

/-! ### Calculations -/

/-- A step of a calculation: a register is set to an integer, or to what an operation gives on two
registers. -/
inductive Assignment where
  | integer (target : Fin 8) (value : Int)
  | result (operation : Operation) (target left right : Fin 8)

namespace Assignment

/-- A step as the machine takes it, with the unit and with byte registers. -/
def onRegisters (registers : Registers) : Assignment → Except Fault Registers
  | .integer target value => registers.set (.ofNat target) (.ofInt value)
  | .result operation target left right => do
    let first ← registers.get (.ofNat left)
    let second ← registers.get (.ofNat right)
    registers.set (.ofNat target) (.ofByte (operation.apply (.ofByte first) (.ofByte second)))

/-- The same step on integers, where nothing is reduced. -/
def onIntegers (values : Fin 8 → Int) : Assignment → Fin 8 → Int
  | .integer target value => Function.update values target value
  | .result operation target left right =>
    Function.update values target (operation.onIntegers (values left) (values right))

variable {registers : Registers} {values : Fin 8 → Int}

theorem onRegisters_residues (assignment : Assignment) (held : registers.HoldResidues values) :
    ∃ after, assignment.onRegisters registers = .ok after ∧
      after.HoldResidues (assignment.onIntegers values) := by
  cases assignment with
  | integer target value => exact held.set target (Number.toByte_ofInt value)
  | result operation target left right =>
    rw [onRegisters, held left, held right]
    refine held.set target ?_
    rw [Number.toByte_ofByte]
    exact operation.apply_lowByte (values left) (values right)

/-- A calculation never fails, and its registers hold at the end what it gives on integers. -/
theorem foldlM_residues (assignments : List Assignment) (held : registers.HoldResidues values) :
    ∃ after, assignments.foldlM onRegisters registers = .ok after ∧
      after.HoldResidues (assignments.foldl onIntegers values) := by
  induction assignments generalizing registers values with
  | nil => exact ⟨registers, rfl, held⟩
  | cons assignment rest inductionHypothesis =>
    obtain ⟨next, taken, kept⟩ := assignment.onRegisters_residues held
    obtain ⟨after, ended, residues⟩ := inductionHypothesis kept
    refine ⟨after, ?_, residues⟩
    rw [List.foldlM_cons, taken]
    exact ended

end Assignment

/-- Reduction modulo 256 commutes with arithmetic. An operation on integers up to 2^52 gives the
residue of the exact result, which depends on the residues of the operands only; and a calculation
in registers that hold residues ends with the residues of the same calculation on integers. -/
theorem arithmetic_commutes_with_reduction :
    (∀ (operation : Operation) (left right : Int), left.natAbs ≤ 2 ^ 52 → right.natAbs ≤ 2 ^ 52 →
      ∃ byte, Operation.compute operation.selector (.ofInt left) (.ofInt right) = .ok byte ∧
        (byte.toNat : Int) = operation.onIntegers left right % 256 ∧
        ∀ other another : Int, other.natAbs ≤ 2 ^ 52 → another.natAbs ≤ 2 ^ 52 →
          other % 256 = left % 256 → another % 256 = right % 256 →
            Operation.compute operation.selector (.ofInt other) (.ofInt another) = .ok byte) ∧
    ∀ (assignments : List Assignment) (registers : Registers) (values : Fin 8 → Int),
      registers.HoldResidues values →
        ∃ after, assignments.foldlM Assignment.onRegisters registers = .ok after ∧
          after.HoldResidues (assignments.foldl Assignment.onIntegers values) := by
  refine ⟨fun operation left right leftSmall rightSmall => ?_,
    fun assignments _ _ held => Assignment.foldlM_residues assignments held⟩
  refine ⟨lowByte (operation.onIntegers left right), ?_, ?_, ?_⟩
  · rw [Operation.compute_selector, operation.apply_ofInt leftSmall rightSmall]
  · rw [toNat_lowByte]
    omega
  · intro other another otherSmall anotherSmall first second
    rw [Operation.compute_selector, operation.apply_ofInt otherSmall anotherSmall,
      lowByte_eq_iff.mpr (operation.onIntegers_emod first second)]

-- beyond 2^53 sums are rounded before they are reduced
example : Operation.add.apply (.ofInt 9007199254740992) (.ofInt 1) = 0 := by
  decide +kernel

/-- The greatest difference there is, -2^53 plus one, and a product of operands of either sign. In
registers, 300 times -7 is the residue of -2100, and adding 300 to it that of -1800. -/
theorem far_apart_reduced :
    Operation.compute "SUB" (.ofInt (-4503599627370496)) (.ofInt 4503599627370495) = .ok 1 ∧
      Operation.compute "MUL" (.ofInt (-4503599627370493)) (.ofInt 4503599627370491) = .ok 241 ∧
      ∃ after, List.foldlM Assignment.onRegisters Registers.initial
          [.integer 0 300, .integer 1 (-7), .result .multiply 1 0 1, .result .add 0 1 0] =
            .ok after ∧
        after.get (.ofNat 1) = .ok (lowByte (-2100)) ∧
        after.get (.ofNat 0) = .ok (lowByte (-1800)) := by
  obtain ⟨single, calculation⟩ := arithmetic_commutes_with_reduction
  have initially : Registers.initial.HoldResidues fun index => if index = 7 then 255 else 0 := by
    intro index
    rw [Registers.get_ofNat]
    refine congrArg Except.ok ?_
    revert index
    decide
  obtain ⟨difference, subtracted, apart, -⟩ :=
    single .subtract (-4503599627370496) 4503599627370495 (by decide) (by decide)
  obtain ⟨product, multiplied, congruent, -⟩ :=
    single .multiply (-4503599627370493) 4503599627370491 (by decide) (by decide)
  obtain ⟨after, ended, held⟩ := calculation
    [.integer 0 300, .integer 1 (-7), .result .multiply 1 0 1, .result .add 0 1 0] _ _ initially
  refine ⟨?_, ?_, after, ended, held 1, held 0⟩
  · have value : difference = 1 := UInt8.toNat_inj.mp (Int.ofNat.inj apart)
    exact value ▸ subtracted
  · have value : product = 241 := UInt8.toNat_inj.mp (Int.ofNat.inj congruent)
    exact value ▸ multiplied

end EightBit
