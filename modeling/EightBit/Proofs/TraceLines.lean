/-
Trace lines lose nothing of what they show. A line is made of words with a blank between two of
them, and no word holds a blank itself, so the line falls back into its words, although mnemonics
differ in length. The bytes are then read from their digits and the opcode from its mnemonic, which
no other opcode has. Two machines with the same line stand at the same address, with the same three
bytes there and the same registers.
-/

import EightBit.Proofs.Digits
import EightBit.Proofs.StraightLine
import EightBit.Proofs.Tracing

namespace EightBit

/-! ### Reading a trace line -/

/-- What a trace line shows. -/
structure Traced where
  pc : UInt8
  opcode : Opcode
  second : UInt8
  third : UInt8
  registers : List UInt8

namespace Traced

def line (traced : Traced) : String :=
  "TRACE: " ++ Text.hexByte traced.pc ++ " | " ++ traced.opcode.mnemonic ++ " " ++
    Text.hexByte traced.second ++ " " ++ Text.hexByte traced.third ++ " | " ++
    Text.hexBytes traced.registers

/-- The words of the line. -/
def words (traced : Traced) : List (List Char) :=
  "TRACE:".toList :: (Text.hexByte traced.pc).toList :: ['|'] ::
    traced.opcode.mnemonic.toList :: (Text.hexByte traced.second).toList ::
    (Text.hexByte traced.third).toList :: ['|'] ::
    traced.registers.map fun byte => (Text.hexByte byte).toList

/-- The byte that a word of two digits stands for. -/
def byteOfWord? : List Char → Option UInt8
  | [high, low] => Text.byte? high low
  | _ => none

/-- The opcode that a word names. -/
def opcodeOfWord? (word : List Char) : Option Opcode :=
  Opcode.all.find? fun opcode => opcode.mnemonic.toList = word

/-- Reads a line word by word. -/
def ofLine? (line : String) : Option Traced :=
  match line.toList.splitOn ' ' with
  | _ :: pc :: _ :: mnemonic :: second :: third :: _ :: registers => do
    return {
      pc := ← byteOfWord? pc
      opcode := ← opcodeOfWord? mnemonic
      second := ← byteOfWord? second
      third := ← byteOfWord? third
      registers := ← registers.mapM byteOfWord? }
  | _ => none

theorem byteOfWord?_hexByte (byte : UInt8) :
    byteOfWord? (Text.hexByte byte).toList = some byte := by
  rw [Text.toList_hexByte]
  exact Text.byte?_hexDigit byte

theorem opcodeOfWord?_mnemonic (opcode : Opcode) :
    opcodeOfWord? opcode.mnemonic.toList = some opcode := by
  cases opcode <;> decide

theorem mapM_byteOfWord? (bytes : List UInt8) :
    (bytes.map fun byte => (Text.hexByte byte).toList).mapM byteOfWord? = some bytes := by
  induction bytes with
  | nil => rfl
  | cons byte rest inductionHypothesis =>
    rw [List.map_cons, List.mapM_cons, byteOfWord?_hexByte, inductionHypothesis]
    rfl

theorem toList_line {traced : Traced} (shown : traced.registers ≠ []) :
    traced.line.toList = [' '].intercalate traced.words := by
  have registers : (Text.hexBytes traced.registers).toList =
      [' '].intercalate (traced.registers.map fun byte => (Text.hexByte byte).toList) := by
    rw [Text.hexBytes, String.toList_intercalate, List.map_map]
    rfl
  have behind : (traced.registers.map fun byte => (Text.hexByte byte).toList) ≠ [] := by
    rw [ne_eq, List.map_eq_nil_iff]
    exact shown
  have front : "TRACE: ".toList = "TRACE:".toList ++ [' '] := by decide
  have blank : " ".toList = [' '] := by decide
  have bar : " | ".toList = [' '] ++ ['|'] ++ [' '] := by decide
  unfold line words
  simp only [String.toList_append, front, blank, bar, registers, List.intercalate_cons_cons,
    List.intercalate_cons_of_ne_nil behind, List.append_assoc]

theorem blank_not_mem_hexByte (byte : UInt8) : ' ' ∉ (Text.hexByte byte).toList := by
  have upper : byte.toNat / 16 < 16 := Nat.div_lt_of_lt_mul byte.toNat_lt
  have lower : byte.toNat % 16 < 16 := Nat.mod_lt _ (by decide)
  rw [Text.toList_hexByte]
  simp [(Text.hexDigit_ne_blank upper).symm, (Text.hexDigit_ne_blank lower).symm]

theorem blank_not_mem_mnemonic (opcode : Opcode) : ' ' ∉ opcode.mnemonic.toList := by
  cases opcode <;> decide

theorem blank_not_mem_words {traced : Traced} {word : List Char} (member : word ∈ traced.words) :
    ' ' ∉ word := by
  simp only [words, List.mem_cons, List.mem_map] at member
  rcases member with rfl | rfl | rfl | rfl | rfl | rfl | rfl | ⟨byte, -, rfl⟩
  · decide
  · exact blank_not_mem_hexByte _
  · decide
  · exact blank_not_mem_mnemonic _
  · exact blank_not_mem_hexByte _
  · exact blank_not_mem_hexByte _
  · decide
  · exact blank_not_mem_hexByte byte

/-- A line that shows registers is read as what it shows. -/
theorem ofLine?_line {traced : Traced} (shown : traced.registers ≠ []) :
    ofLine? traced.line = some traced := by
  have split : traced.line.toList.splitOn ' ' = traced.words := by
    rw [toList_line shown]
    exact List.splitOn_intercalate ' ' (fun _ member => blank_not_mem_words member)
      (List.cons_ne_nil _ _)
  rw [ofLine?, split, words]
  simp only [byteOfWord?_hexByte, opcodeOfWord?_mnemonic, mapM_byteOfWord?]
  rfl

theorem eq_of_line_eq {first second : Traced} (firstShown : first.registers ≠ [])
    (secondShown : second.registers ≠ []) (same : first.line = second.line) : first = second := by
  have read := ofLine?_line firstShown
  rw [same, ofLine?_line secondShown] at read
  exact (Option.some.inj read).symm

end Traced

/-! ### What the line of a machine shows -/

theorem Memory.read_of_lt {memory : Memory} {address : Nat} (inside : address < memory.size) :
    memory.read (.ofNat address) = .ok (memory.cellOrZero address) := by
  rw [read_ofNat, dif_pos inside]
  exact congrArg Except.ok (memory.cellOrZero_eq_cell ⟨address, inside⟩).symm

theorem Registers.toList_ne_nil (registers : Registers) : registers.toList ≠ [] := by
  have length : registers.toList.length = 8 := registers.values.length_toList
  intro empty
  rw [empty] at length
  cases length

theorem Registers.eq_of_toList_eq {registers others : Registers}
    (same : registers.toList = others.toList) : registers = others :=
  congrArg Registers.mk (Vector.toList_inj.mp same)

namespace Machine

/-- What is shown of a machine that has fetched an instruction. -/
def shown (machine : Machine) (address : Nat) (opcode : Opcode) : Traced where
  pc := UInt8.ofNat address
  opcode := opcode
  second := machine.memory.cellOrZero ((address + 1) % 256)
  third := machine.memory.cellOrZero ((address + 2) % 256)
  registers := machine.registers.toList

variable {first second : Machine} {address place : Nat} {opcode other : Opcode}

/-- Two machines have the same line just when they stand at the same address, with the same bytes
there and behind, where addresses wrap, and with the same registers. -/
theorem lineAt_eq_lineAt_iff (firstSize : first.memory.size = 256)
    (secondSize : second.memory.size = 256) (fetched : first.fetched = .ok (address, opcode))
    (otherFetched : second.fetched = .ok (place, other)) :
    first.lineAt address = second.lineAt place ↔
      address = place ∧
      (∀ offset ≤ 2, first.memory.cellOrZero ((address + offset) % 256) =
        second.memory.cellOrZero ((place + offset) % 256)) ∧
      first.registers = second.registers := by
  obtain ⟨-, inside, decoded⟩ := (first.fetched_eq_ok_iff address opcode).mp fetched
  obtain ⟨-, within, known⟩ := (second.fetched_eq_ok_iff place other).mp otherFetched
  have firstPlace : (address + 0) % 256 = address := by omega
  have secondPlace : (place + 0) % 256 = place := by omega
  have line : first.lineAt address = (first.shown address opcode).line :=
    lineAt_eq firstSize fetched
  have otherLine : second.lineAt place = (second.shown place other).line :=
    lineAt_eq secondSize otherFetched
  constructor
  · intro same
    rw [line, otherLine] at same
    have equal := Traced.eq_of_line_eq (Registers.toList_ne_nil _) (Registers.toList_ne_nil _) same
    have positions : UInt8.ofNat address = UInt8.ofNat place := congrArg Traced.pc equal
    have opcodes : opcode = other := congrArg Traced.opcode equal
    refine ⟨?_, fun offset near => ?_, Registers.eq_of_toList_eq (congrArg Traced.registers equal)⟩
    · have values := congrArg UInt8.toNat positions
      rw [UInt8.toNat_ofNat', UInt8.toNat_ofNat'] at values
      omega
    · match offset, near with
      | 0, _ =>
        rw [firstPlace, secondPlace, ← Opcode.byte_of_decode? decoded,
          ← Opcode.byte_of_decode? known, opcodes]
      | 1, _ => exact congrArg Traced.second equal
      | 2, _ => exact congrArg Traced.third equal
  · rintro ⟨rfl, bytes, registers⟩
    have byte := bytes 0 (by decide)
    rw [firstPlace] at byte
    rw [byte, known] at decoded
    have equal : first.shown address opcode = second.shown address other := by
      unfold shown
      rw [bytes 1 (by decide), bytes 2 (by decide), registers, Option.some.inj decoded]
    rw [line, otherLine, equal]

/-- What the observer is told in the next step of a machine, one observation or none. -/
def told (machine : Machine) : List Observation :=
  (stateLeft (step scribes ⟨machine, [], []⟩)).host.1

/-- The observer is told of nothing but an instruction that a running machine has fetched. -/
theorem exists_fetched_of_told {machine : Machine} {seen : Observation}
    (member : seen ∈ machine.told) :
    ∃ address opcode, machine.fetched = .ok (address, opcode) ∧
      seen = Action.observation machine address (machine.memory.cellOrZero address) := by
  unfold told at member
  by_cases halted : machine.halted = true
  · rw [Command.step_of_halted halted] at member
    cases member
  · have running : machine.halted = false := Bool.eq_false_iff.mpr halted
    cases fetched : machine.fetched with
    | error fault =>
      rw [step_unfetched scribes running fetched] at member
      cases member
    | ok instruction =>
      rw [scribes_told running fetched] at member
      exact ⟨_, _, rfl, List.mem_singleton.mp member⟩

end Machine

/-- Trace lines are lossless. Of two machines with standard memory whose observers are told of an
instruction, the lines are equal just when the program counters, the bytes there and at the next two
addresses modulo 256, and all registers are. -/
theorem trace_lines_lossless (first second : Machine) (firstSize : first.memory.size = 256)
    (secondSize : second.memory.size = 256) (seen other : Observation)
    (told : seen ∈ first.told) (otherTold : other ∈ second.told) :
    first.pc = .ofNat seen.pc ∧ second.pc = .ofNat other.pc ∧
      (first.traceLine seen = second.traceLine other ↔
        seen.pc = other.pc ∧
        (∀ offset ≤ 2, ∃ byte,
          first.memory.read (.ofNat ((seen.pc + offset) % 256)) = .ok byte ∧
          second.memory.read (.ofNat ((other.pc + offset) % 256)) = .ok byte) ∧
        first.registers = second.registers) := by
  obtain ⟨address, opcode, fetched, rfl⟩ := Machine.exists_fetched_of_told told
  obtain ⟨place, otherOpcode, otherFetched, rfl⟩ := Machine.exists_fetched_of_told otherTold
  have reads (machine : Machine) (size : machine.memory.size = 256) (position : Nat) :
      machine.memory.read (.ofNat (position % 256)) =
        .ok (machine.memory.cellOrZero (position % 256)) :=
    Memory.read_of_lt (Nat.lt_of_lt_of_eq (Nat.mod_lt _ (by decide)) size.symm)
  refine ⟨((first.fetched_eq_ok_iff _ _).mp fetched).1,
    ((second.fetched_eq_ok_iff _ _).mp otherFetched).1, ?_⟩
  refine (Machine.lineAt_eq_lineAt_iff firstSize secondSize fetched otherFetched).trans ?_
  refine and_congr_right fun _ => and_congr_left fun _ => forall₂_congr fun offset _ => ?_
  constructor
  · intro same
    exact ⟨_, reads first firstSize _, same ▸ reads second secondSize _⟩
  · rintro ⟨byte, firstByte, secondByte⟩
    rw [reads _ firstSize] at firstByte
    rw [reads _ secondSize] at secondByte
    exact Except.ok.inj (firstByte.trans secondByte.symm)

/-- A machine at the last address of its memory, about to print. The instruction wraps, and two
cells are left open: one that the line shows and one that it does not. -/
def atLastCell (shown hidden : UInt8) : Machine :=
  let start := Machine.create (.blank 256)
  let memory := ((start.memory.assign 255 0x47).assign 1 shown).assign 2 hidden
  { start with memory, pc := .ofNat 255 }

/-- What the observer is told there: operands behind the end of memory count as zero. -/
def seenAtLastCell : Observation where
  pc := 255
  opcode := 0x47
  operands := (0, 0)
  registers := .initial

/-- The two machines differ, but not in what their line shows. The last byte that it shows is from
the other end of memory, and can be read there in both. -/
theorem atLastCell_lines :
    (atLastCell 7 8).traceLine seenAtLastCell =
        "TRACE: FF | PRN 00 07 | 00 00 00 00 00 00 00 FF" ∧
      (atLastCell 7 9).traceLine seenAtLastCell = (atLastCell 7 8).traceLine seenAtLastCell ∧
      (atLastCell 7 9).memory.cellOrZero 2 ≠ (atLastCell 7 8).memory.cellOrZero 2 ∧
      ∃ byte, (atLastCell 7 9).memory.read (.ofNat 1) = .ok byte ∧
        (atLastCell 7 8).memory.read (.ofNat 1) = .ok byte := by
  have same : (atLastCell 7 9).traceLine seenAtLastCell =
      (atLastCell 7 8).traceLine seenAtLastCell := by
    decide +kernel
  have lossless := trace_lines_lossless (atLastCell 7 9) (atLastCell 7 8) (by decide +kernel)
    (by decide +kernel) seenAtLastCell seenAtLastCell (by decide +kernel) (by decide +kernel)
  obtain ⟨-, bytes, -⟩ := lossless.2.2.mp same
  have shown := bytes 2 (by decide)
  have wrapped : (seenAtLastCell.pc + 2) % 256 = 1 := by decide
  rw [wrapped] at shown
  exact ⟨by decide +kernel, same, by decide +kernel, shown⟩

end EightBit
