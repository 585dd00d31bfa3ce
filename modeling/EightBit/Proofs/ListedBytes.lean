/-
A listing shows every byte of a program once. Each line begins where the bytes of the line before it
end, so the lines cut the program into pieces; the last piece may reach past the end of the program,
where zeros are shown or, at address 256, the first bytes once more. What a line shows is read here
from its text: the address from the first two characters, the bytes from the column of nine behind
it. Two programs of one length with the same listing are therefore the same.
-/

import EightBit.Proofs.Digits
import EightBit.Proofs.Listing

namespace EightBit

/-! ### Reading a line -/

namespace Listing

/-- The address and the bytes that a line of a listing shows. -/
def readLine? (line : String) : Option (Nat × List UInt8) :=
  match line.toList with
  | high :: low :: ':' :: ' ' :: rest => do
    let address ← Text.byte? high low
    let bytes ← Text.bytes? ((rest.take 9).filter (· ≠ ' '))
    return (address.toNat, bytes)
  | _ => none

theorem readLine?_of_toList {line : String} {high low : Char} {rest : List Char}
    {address : UInt8} {bytes : List UInt8}
    (text : line.toList = high :: low :: ':' :: ' ' :: rest)
    (number : Text.byte? high low = some address)
    (column : Text.bytes? ((rest.take 9).filter (· ≠ ' ')) = some bytes) :
    readLine? line = some (address.toNat, bytes) := by
  unfold readLine?
  rw [text]
  simp only [number, column]
  rfl

theorem toList_padRight (width : Nat) (text : String) :
    (padRight width text).toList = text.toList ++ List.replicate (width - text.length) ' ' := by
  rw [padRight, String.toList_append, String.toList_ofList]

/-- A line shows its address and the bytes of its instruction. -/
theorem readLine?_line {address : Nat} (inside : address < 256) (decoded : Decoded) :
    readLine? (line address decoded) = some (address, decoded.bytes) := by
  have number : (UInt8.ofNat address).toNat = address := Nat.mod_eq_of_lt inside
  have few : (Text.hexBytes decoded.bytes).length ≤ 9 := by
    have bound := Text.length_hexBytes_le decoded.bytes
    have length := decoded.length_bytes
    rcases decoded.length_cases with one | two | three <;> omega
  have column : (padRight 9 (Text.hexBytes decoded.bytes)).toList.length = 9 := by
    rw [toList_padRight, List.length_append, String.length_toList, List.length_replicate]
    omega
  have digits : (padRight 9 (Text.hexBytes decoded.bytes)).toList.filter (· ≠ ' ') =
      decoded.bytes.flatMap fun byte => (Text.hexByte byte).toList := by
    rw [toList_padRight, List.filter_append, Text.filter_hexBytes]
    simp
  have text : (line address decoded).toList =
      Text.hexDigit (address / 16) :: Text.hexDigit (address % 16) :: ':' :: ' ' ::
        ((padRight 9 (Text.hexBytes decoded.bytes)).toList ++ ' ' :: decoded.text.toList) := by
    simp [line, Number.toByte_ofNat, Text.toList_hexByte, number]
  have shown : Text.byte? (Text.hexDigit (address / 16)) (Text.hexDigit (address % 16)) =
      some (UInt8.ofNat address) := by
    have read := Text.byte?_hexDigit (UInt8.ofNat address)
    rw [number] at read
    exact read
  have bytes : Text.bytes? ((((padRight 9 (Text.hexBytes decoded.bytes)).toList ++
      ' ' :: decoded.text.toList).take 9).filter (· ≠ ' ')) = some decoded.bytes := by
    rw [List.take_left' column, digits, Text.bytes?_flatMap_hexByte]
  rw [readLine?_of_toList text shown bytes, number]

/-! ### The sweep -/

/-- The address and the bytes of every instruction of a program. -/
def rows (program : List UInt8) : List (Nat × List UInt8) :=
  (instructions program).map fun entry => (entry.1, entry.2.bytes)

/-- Rows that cut a program into pieces, from an address on. What a row shows past the end of the
program is left open. -/
inductive Covers (program : List UInt8) : Nat → List (Nat × List UInt8) → Prop
  | done {address : Nat} (past : program.length ≤ address) : Covers program address []
  | row {address : Nat} {bytes : List UInt8} {rest : List (Nat × List UInt8)}
      (inside : address < program.length) (few : bytes.length ≤ 3)
      (own : bytes.take (program.length - address) = (program.drop address).take bytes.length)
      (later : Covers program (address + bytes.length) rest) :
      Covers program address ((address, bytes) :: rest)

/-- Where the program has bytes, decoding shows them. -/
theorem take_bytes_decodeAt {program : List UInt8} (short : program.length ≤ 256) {address : Nat}
    (inside : address < program.length) {decoded : Decoded}
    (found : decodeAt (fun place => program.toArray[place.toNat]?.getD 0) (.ofNat address) =
      decoded) :
    decoded.bytes.take (program.length - address) =
      (program.drop address).take decoded.bytes.length := by
  have cell (offset : Nat) (within : address + offset < program.length) :
      program.toArray[(UInt8.ofNat (address + offset)).toNat]?.getD 0 =
        program[address + offset] := by
    have place : (UInt8.ofNat (address + offset)).toNat = address + offset :=
      Nat.mod_eq_of_lt (Nat.lt_of_lt_of_le within short)
    rw [place, List.getElem?_toArray, List.getElem?_eq_getElem within, Option.getD_some]
  have shown (offset : Nat) (near : offset < 3) (within : address + offset < program.length) :
      decoded.toList[offset]? = program[address + offset]? := by
    rw [← found, decodeAt_ofNat _ (Nat.lt_of_lt_of_le inside short),
      List.getElem?_eq_getElem within, ← cell offset within]
    obtain rfl | rfl | rfl : offset = 0 ∨ offset = 1 ∨ offset = 2 := by omega
    · rfl
    · rfl
    · rfl
  refine List.ext_getElem? fun offset => ?_
  rw [Decoded.length_bytes, Decoded.bytes, List.getElem?_take, List.getElem?_take,
    List.getElem?_take, List.getElem?_drop]
  by_cases within : offset < program.length - address
  · rw [if_pos within]
    by_cases near : offset < decoded.length
    · rw [if_pos near, if_pos near]
      have bound := decoded.length_cases
      exact shown offset (by omega) (by omega)
    · rw [if_neg near, if_neg near]
  · rw [if_neg within, List.getElem?_eq_none (by omega), ite_self]

theorem covers_instructionsFrom {program : List UInt8} (short : program.length ≤ 256)
    {turns address : Nat} (enough : program.length ≤ address + turns) :
    Covers program address
      ((instructionsFrom program.toArray turns address).map fun entry =>
        (entry.1, entry.2.bytes)) := by
  induction turns generalizing address with
  | zero => exact .done enough
  | succ turns inductionHypothesis =>
    by_cases inside : address < program.length
    · have within : address < program.toArray.size := inside
      obtain ⟨decoded, found, first⟩ := instructionsFrom_of_lt within turns
      have length := decoded.length_bytes
      have bound := decoded.length_cases
      have few : decoded.bytes.length ≤ 3 := by omega
      rw [first, List.map_cons]
      refine .row inside few (take_bytes_decodeAt short inside found) ?_
      rw [length]
      exact inductionHypothesis (by omega)
    · rw [instructionsFrom_of_le (Nat.not_lt.mp inside)]
      exact .done (Nat.not_lt.mp inside)

/-- With as many turns as there are bytes left the sweep ends, and further turns add nothing. -/
theorem instructionsFrom_of_enough {program : Array UInt8} {turns address : Nat}
    (enough : program.size ≤ address + turns) (more : Nat) :
    instructionsFrom program (turns + more) address = instructionsFrom program turns address := by
  induction turns generalizing address with
  | zero =>
    have past : program.size ≤ address := enough
    rw [instructionsFrom_of_le past, instructionsFrom_of_le past]
  | succ turns inductionHypothesis =>
    by_cases inside : address < program.size
    · obtain ⟨decoded, found, first⟩ := instructionsFrom_of_lt inside turns
      obtain ⟨again, same, further⟩ := instructionsFrom_of_lt inside (turns + more)
      obtain rfl : decoded = again := found.symm.trans same
      have bound := decoded.length_cases
      rw [Nat.add_right_comm, further, first, inductionHypothesis (by omega)]
    · rw [instructionsFrom_of_le (Nat.not_lt.mp inside),
        instructionsFrom_of_le (Nat.not_lt.mp inside)]

/-! ### What the rows say -/

namespace Covers

variable {program : List UInt8} {address : Nat} {rows : List (Nat × List UInt8)}

theorem start (covers : Covers program address rows) {row : Nat × List UInt8}
    (first : rows[0]? = some row) : row.1 = address := by
  cases covers with
  | done => cases first
  | row =>
    cases first
    rfl

theorem inside (covers : Covers program address rows) {row : Nat × List UInt8}
    (member : row ∈ rows) : row.1 < program.length ∧ row.2.length ≤ 3 := by
  induction covers with
  | done => cases member
  | row inside few own later inductionHypothesis =>
    rcases List.mem_cons.mp member with rfl | below
    · exact ⟨inside, few⟩
    · exact inductionHypothesis below

theorem next (covers : Covers program address rows) {index : Nat}
    {row following : Nat × List UInt8} (shown : rows[index]? = some row)
    (after : rows[index + 1]? = some following) :
    following.1 = row.1 + row.2.length := by
  induction covers generalizing index with
  | done => cases shown
  | row inside few own later inductionHypothesis =>
    cases index with
    | zero =>
      cases shown
      exact later.start after
    | succ index => exact inductionHypothesis shown after

/-- Put together and cut where the program ends, the bytes are those of the program. -/
theorem take_flatMap (covers : Covers program address rows) :
    (rows.flatMap Prod.snd).take (program.length - address) = program.drop address := by
  induction covers with
  | done past => rw [Nat.sub_eq_zero_of_le past, List.take_zero, List.drop_eq_nil_of_le past]
  | @row address bytes rest inside few own later inductionHypothesis =>
    rw [List.flatMap_cons, List.take_append, own, Nat.sub_sub, inductionHypothesis,
      ← List.drop_drop, List.take_append_drop]

end Covers

/-- What the rows of a listing say of the program: they start at zero, each begins where the one
before it ends, only the last one shows bytes past the end of the program and at most two of them,
and all bytes in a row, cut where the program ends, are the program. -/
structure Partitions (program : List UInt8) (rows : List (Nat × List UInt8)) : Prop where
  start : ∀ row, rows[0]? = some row → row.1 = 0
  next : ∀ index row following, rows[index]? = some row → rows[index + 1]? = some following →
    following.1 = row.1 + row.2.length ∧ row.1 + row.2.length ≤ program.length
  overhang : ∀ row ∈ rows, row.1 + row.2.length ≤ program.length + 2
  bytes : (rows.flatMap Prod.snd).take program.length = program

theorem Covers.partitions {program : List UInt8} {rows : List (Nat × List UInt8)}
    (covers : Covers program 0 rows) : Partitions program rows where
  start _ first := covers.start first
  next index row following shown after := by
    have behind := covers.next shown after
    have inside := (covers.inside (List.mem_of_getElem? after)).1
    exact ⟨behind, by omega⟩
  overhang row member := by
    have bounds := covers.inside member
    omega
  bytes := covers.take_flatMap

theorem covers_rows {program : List UInt8} (short : program.length ≤ 256) :
    Covers program 0 (rows program) :=
  covers_instructionsFrom short (Nat.le_of_eq (Nat.zero_add _).symm)

/-- The rows can be read from the text of the lines. -/
theorem map_readLine?_lines {program : List UInt8} (short : program.length ≤ 256) :
    (lines program).map readLine? = (rows program).map some := by
  rw [lines, rows, List.map_map, List.map_map]
  refine List.map_congr_left fun entry member => ?_
  obtain ⟨address, decoded⟩ := entry
  have inside := ((covers_rows short).inside (List.mem_map_of_mem member)).1
  rw [Function.comp_apply, Function.comp_apply]
  exact readLine?_line (Nat.lt_of_lt_of_le inside short) decoded

theorem rows_injective {program other : List UInt8} (short : program.length ≤ 256)
    (length : other.length = program.length) (same : rows other = rows program) :
    other = program := by
  have first := (covers_rows (length.symm ▸ short : other.length ≤ 256)).take_flatMap
  have second := (covers_rows short).take_flatMap
  rw [same, length] at first
  exact first.symm.trans second

/-- The listing of a program neither loses nor repeats nor alters a byte. The sweep ends, the lines
partition the program as their texts show it, and programs of one length with equal listings are
equal. -/
theorem listing_partitions (program : List UInt8) (short : program.length ≤ 256) :
    (∀ more, instructionsFrom program.toArray (program.length + more) 0 = instructions program) ∧
      (∃ rows, (lines program).map readLine? = rows.map some ∧ Partitions program rows) ∧
      ∀ other : List UInt8, other.length = program.length → lines other = lines program →
        other = program := by
  refine ⟨fun more => instructionsFrom_of_enough (Nat.le_of_eq (Nat.zero_add _).symm) more,
    ⟨rows program, map_readLine?_lines short, (covers_rows short).partitions⟩,
    fun other length same => ?_⟩
  have read : (rows other).map some = (rows program).map some := by
    rw [← map_readLine?_lines short, ← map_readLine?_lines (length.symm ▸ short), same]
  exact rows_injective short length ((List.map_inj_right fun _ _ => Option.some.inj).mp read)

/-- A program whose last instruction is cut off behind its first byte. -/
def overhanging : List UInt8 :=
  [0x47, 0, 0x82]

/-- Its last line shows two zeros past the end of the program. No other program of three bytes has
these two lines. -/
theorem overhanging_partitioned :
    lines overhanging = ["00: 47 00     PRN R0", "02: 82 00 00  LDI R0,#0"] ∧
      Partitions overhanging [(0, [0x47, 0]), (2, [0x82, 0, 0])] ∧
      ∀ other : List UInt8, other.length = 3 → lines other = lines overhanging →
        other = overhanging := by
  have text : lines overhanging = ["00: 47 00     PRN R0", "02: 82 00 00  LDI R0,#0"] := by
    decide +kernel
  have shown : (lines overhanging).map readLine? =
      [(0, [0x47, 0]), (2, [0x82, 0, 0])].map some := by
    rw [text]
    decide +kernel
  obtain ⟨-, ⟨rows, read, partitions⟩, unique⟩ := listing_partitions overhanging (by decide)
  have same : rows = [(0, [0x47, 0]), (2, [0x82, 0, 0])] :=
    (List.map_inj_right fun _ _ => Option.some.inj).mp (read.symm.trans shown)
  exact ⟨text, same ▸ partitions, unique⟩

end Listing

end EightBit
