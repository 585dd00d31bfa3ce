/-
What decoding shows. A decoded instruction is described by its opcode and the bytes it consists of,
and so is its line in a listing. Decoding wraps at address 256 and never fails; an instruction that
ends at the end of memory or before it is shown with the cells it consists of.
-/

import EightBit.Proofs.Integers
import EightBit.Report

namespace EightBit

/-! ### Instructions -/

theorem Opcode.length_cases (opcode : Opcode) :
    opcode.length = 1 ∨ opcode.length = 2 ∨ opcode.length = 3 := by
  cases opcode <;> decide

/-- Values beyond the operands are not shown. -/
theorem Listing.operandsText_take (kinds : List Operand) (values : List Number) :
    operandsText kinds (values.take kinds.length) = operandsText kinds values := by
  unfold operandsText
  refine congrArg (String.intercalate ",") (List.mapIdx_eq_mapIdx_iff.mpr fun index bound => ?_)
  rw [List.getElem?_take_of_lt bound]

/-- The line that shows an instruction at an address and the bytes it consists of. -/
def Opcode.listed (opcode : Opcode) (address : Nat) (bytes : List UInt8) : String :=
  Text.hexByte (UInt8.ofNat address) ++ ": " ++ Listing.padRight 9 (Text.hexBytes bytes) ++ " " ++
    Listing.instructionText opcode.mnemonic
      (Listing.operandsText opcode.operands (bytes.tail.map Number.ofByte))

namespace Decoded

variable {decoded : Decoded} {opcode : Opcode}

theorem length_cases (decoded : Decoded) :
    decoded.length = 1 ∨ decoded.length = 2 ∨ decoded.length = 3 := by
  unfold length
  cases decoded.opcode? with
  | none => exact Or.inl rfl
  | some opcode => exact opcode.length_cases

theorem length_bytes (decoded : Decoded) : decoded.bytes.length = decoded.length := by
  have three : decoded.toList.length = 3 := rfl
  rw [bytes, List.length_take, three]
  rcases decoded.length_cases with one | two | three <;> omega

theorem mnemonic_of_opcode? (found : decoded.opcode? = some opcode) :
    decoded.mnemonic = opcode.mnemonic := by
  unfold mnemonic
  rw [found]

theorem length_of_opcode? (found : decoded.opcode? = some opcode) :
    decoded.length = opcode.length := by
  unfold length
  rw [found]

theorem bytes_of_opcode? (found : decoded.opcode? = some opcode) :
    decoded.bytes = decoded.toList.take opcode.length := by
  unfold bytes
  rw [length_of_opcode? found]

/-- The text of an instruction is made from its own bytes only. -/
theorem text_of_opcode? (found : decoded.opcode? = some opcode) :
    decoded.text = Listing.instructionText opcode.mnemonic
      (Listing.operandsText opcode.operands (decoded.bytes.tail.map Number.ofByte)) := by
  have own : decoded.bytes.tail.map Number.ofByte =
      [Number.ofByte decoded.second, .ofByte decoded.third].take opcode.operands.length := by
    rw [bytes_of_opcode? found]
    exact List.map_take
  rw [own, Listing.operandsText_take]
  unfold text operand
  rw [mnemonic_of_opcode? found, found]

theorem line_of_opcode? (address : Nat) (found : decoded.opcode? = some opcode) :
    Listing.line address decoded = opcode.listed address decoded.bytes := by
  unfold Listing.line Opcode.listed
  rw [text_of_opcode? found, Number.toByte_ofNat]

end Decoded

/-! ### Cells -/

/-- Inside the standard memory, decoding looks at the cells from the program counter on. Addresses
wrap at the end. -/
theorem Listing.decodeAt_ofNat (cell : UInt8 → UInt8) {address : Nat} (inside : address < 256) :
    decodeAt cell (.ofNat address) =
      { first := cell (UInt8.ofNat address)
        second := cell (UInt8.ofNat (address + 1))
        third := cell (UInt8.ofNat (address + 2)) } := by
  have next (offset : Nat) (near : offset ≤ 2) :
      ((Number.ofNat address).add (.ofNat offset)).toByte = UInt8.ofNat (address + offset) := by
    have sum : (Number.ofNat address).add (.ofNat offset) = .ofNat (address + offset) :=
      Number.add_ofInt address offset (by omega)
    rw [sum, Number.toByte_ofNat]
  simp only [decodeAt, window, Number.toByte_ofNat, next 1 (by decide), next 2 (by decide)]

-- an instruction in the last cell goes on in the first ones
example : Listing.decodeAt id (.ofNat 255) = ⟨255, 0, 1⟩ := by
  decide +kernel

namespace Machine

theorem decodeAt_ofNat (machine : Machine) {address : Nat} (inside : address < 256) :
    machine.decodeAt (.ofNat address) =
      { first := machine.memory.cellOrZero address
        second := machine.memory.cellOrZero ((address + 1) % 256)
        third := machine.memory.cellOrZero ((address + 2) % 256) } := by
  have here : (UInt8.ofNat address).toNat = address := Nat.mod_eq_of_lt inside
  rw [decodeAt, Listing.decodeAt_ofNat _ inside, here]
  rfl

theorem opcode?_decodeAt {machine : Machine} {address : Nat} {opcode : Opcode}
    (inside : address < 256)
    (decoded : Opcode.decode? (machine.memory.cellOrZero address) = some opcode) :
    (machine.decodeAt (.ofNat address)).opcode? = some opcode :=
  (congrArg Decoded.opcode? (machine.decodeAt_ofNat inside)).trans decoded

/-- An instruction that does not reach past address 255 is shown with its own cells. -/
theorem bytes_decodeAt {machine : Machine} {address : Nat} {opcode : Opcode}
    (found : (machine.decodeAt (.ofNat address)).opcode? = some opcode)
    (inside : address + opcode.length ≤ 256) :
    (machine.decodeAt (.ofNat address)).bytes =
      (List.range' address opcode.length).map machine.memory.cellOrZero := by
  have positive : 0 < opcode.length := Nat.succ_pos _
  rw [Decoded.bytes_of_opcode? found, machine.decodeAt_ofNat (by omega)]
  rcases opcode.length_cases with one | two | three
  · rw [one]
    rfl
  · rw [two] at inside ⊢
    have second : (address + 1) % 256 = address + 1 := Nat.mod_eq_of_lt (by omega)
    rw [second]
    rfl
  · rw [three] at inside ⊢
    have second : (address + 1) % 256 = address + 1 := Nat.mod_eq_of_lt (by omega)
    have third : (address + 2) % 256 = address + 2 := Nat.mod_eq_of_lt (by omega)
    rw [second, third]
    rfl

end Machine

/-! ### The sweep over a program -/

namespace Listing

theorem instructionsFrom_of_lt {program : Array UInt8} {address : Nat}
    (inside : address < program.size) (turns : Nat) :
    ∃ decoded, decodeAt (fun place => program[place.toNat]?.getD 0) (.ofNat address) = decoded ∧
      instructionsFrom program (turns + 1) address =
        (address, decoded) :: instructionsFrom program turns (address + decoded.length) := by
  refine ⟨_, rfl, ?_⟩
  rw [instructionsFrom, if_pos inside]

theorem instructionsFrom_of_le {program : Array UInt8} {address : Nat}
    (past : program.size ≤ address) (turns : Nat) :
    instructionsFrom program turns address = [] := by
  cases turns with
  | zero => rfl
  | succ turns => rw [instructionsFrom, if_neg (Nat.not_lt.mpr past)]

end Listing

end EightBit
