/-
Reports of failures. With an integer in the program counter the window lies inside memory, whatever
the counter is, and shows a part of its contents. So a report can be made of everything that can be
put into words, and otherwise asking for the words raises what making the report raises. The opcode
it shows tells whether the machine had an instruction to fail in, or failed to find one.
-/

import EightBit.Proofs.Stepped
import EightBit.Report

namespace EightBit

theorem Opcode.ofNumber?_ofByte (byte : UInt8) : ofNumber? (.ofByte byte) = decode? byte := by
  unfold ofNumber? decode?
  congr 1
  funext opcode
  exact decide_eq_decide.mpr Number.ofByte_inj

namespace Memory

/-- Cells read one by one are a part of the contents of memory. -/
theorem map_cellOrZero_range (memory : Memory) (start count : Nat)
    (inside : start + count ≤ memory.size) :
    (List.range' start count).map memory.cellOrZero = (memory.toList.drop start).take count := by
  refine List.ext_getElem? fun index => ?_
  rw [List.getElem?_map, List.getElem?_take, List.getElem?_drop]
  by_cases before : index < count
  · have place : start + index < memory.size := by omega
    rw [List.getElem?_range' before, if_pos before, Option.map_some, Nat.one_mul]
    unfold cellOrZero toList
    rw [Array.getElem?_toList, Array.getElem?_eq_getElem place]
    rfl
  · rw [List.getElem?_eq_none (by rw [List.length_range']; omega), if_neg before]
    rfl

theorem map_cell_index? (memory : Memory) (place : Nat) :
    ((Number.ofNat place).index? memory.size).map memory.cell = memory.toList[place]? := by
  unfold toList
  rw [Number.index?_ofNat, Array.getElem?_toList]
  by_cases inside : place < memory.size
  · rw [dif_pos inside, Array.getElem?_eq_getElem inside]
    rfl
  · rw [dif_neg inside, Array.getElem?_eq_none (Nat.not_lt.mp inside)]
    rfl

end Memory

/-! ### Values that can be put into words -/

/-- A value of which a text can be made: a primitive one, or an object with a conversion that gives
a primitive value, behind one that has led nowhere at most. -/
inductive Raised.Legible : Raised → Prop
  | primitive (text : String) : Legible (.primitive text)
  | toText (text : String) (toValue : Conversion) : Legible (.object (.primitive text) toValue)
  | toValue {toText : Conversion} (text : String)
      (nowhere : toText = .missing ∨ toText = .object) :
      Legible (.object toText (.primitive text))

theorem Raised.legible_iff (raised : Raised) : raised.Legible ↔ ∃ text, raised.text = .ok text := by
  constructor
  · rintro (text | ⟨text, toValue⟩ | ⟨text, rfl | rfl⟩) <;> exact ⟨text, rfl⟩
  · rintro ⟨text, made⟩
    cases raised with
    | primitive text => exact .primitive text
    | object toText toValue =>
      cases toText with
      | primitive text => exact .toText text toValue
      | raises thrown => cases made
      | missing =>
        cases toValue with
        | primitive text => exact .toValue text (Or.inl rfl)
        | missing | object | raises => cases made
      | object =>
        cases toValue with
        | primitive text => exact .toValue text (Or.inr rfl)
        | missing | object | raises => cases made

namespace Thrown

/-- What was raised can be put into words. Faults and errors always can. -/
def Legible : Thrown → Prop
  | .fault _ | .error _ => True
  | .value raised => raised.Legible

theorem legible_iff (thrown : Thrown) : thrown.Legible ↔ ∃ text, thrown.message = .ok text := by
  cases thrown with
  | fault cause => exact ⟨fun _ => ⟨_, rfl⟩, fun _ => trivial⟩
  | error message => exact ⟨fun _ => ⟨_, rfl⟩, fun _ => trivial⟩
  | value raised => exact raised.legible_iff

end Thrown

namespace Report

/-! ### The window -/

/-- Reading up to an end inside memory cannot fail, and yields the cells on the way. -/
theorem readWindow_ofNat {memory : Memory} {stop : Nat} (inside : stop ≤ memory.size)
    (small : stop < 2 ^ 53) (turns position : Nat) :
    readWindow memory turns (.ofNat position) (.ofNat stop) =
      .ok ((List.range' position (min turns (stop - position))).map fun place =>
        .ofByte (memory.cellOrZero place)) := by
  induction turns generalizing position with
  | zero =>
    rw [Nat.zero_min]
    rfl
  | succ turns inductionHypothesis =>
    rw [readWindow, Number.lt_ofNat]
    by_cases before : position < stop
    · have next : (Number.ofNat position).add (.ofNat 1) = .ofNat (position + 1) :=
        Number.add_ofInt position 1 (by omega)
      have cell : memory.read (.ofNat position) = .ok (memory.cellOrZero position) := by
        have found : ¬ (memory.outside position .read).fails = true := by
          rw [Memory.outside_fails, decide_eq_true_eq]
          omega
        rw [Memory.read_eq_checked, checked_cons, if_neg found]
        rfl
      have count : min (turns + 1) (stop - position) = min turns (stop - (position + 1)) + 1 := by
        omega
      rw [if_pos (decide_eq_true before), cell, next, inductionHypothesis, count,
        List.range'_succ]
      rfl
    · have count : min (turns + 1) (stop - position) = 0 := by omega
      rw [if_neg (by simpa using before), count]
      rfl

/-- The window ends after as many cells as a report shows, or with memory. -/
theorem readWindow_shown (memory : Memory) (start : Nat) (inside : start ≤ memory.size)
    (small : memory.size < 2 ^ 53) :
    readWindow memory (cellsShown + 1) (.ofNat start)
        (.ofNat (min memory.size (start + cellsShown))) =
      .ok (((memory.toList.drop start).take cellsShown).map Number.ofByte) := by
  have length : (memory.toList.drop start).length = memory.size - start := List.length_drop
  have count : min (cellsShown + 1) (min memory.size (start + cellsShown) - start) =
      min cellsShown (memory.toList.drop start).length := by
    rw [length]
    omega
  rw [readWindow_ofNat (Nat.min_le_left _ _) (by omega), count]
  rw [List.take_eq_take_min, ← memory.map_cellOrZero_range start _ (by omega), List.map_map]
  rfl

/-! ### The whole report -/

/-- The report of a machine whose program counter is an integer: what was raised, in words, the cell
at the program counter if there is one, the registers, the end of the log, and the cells around the
program counter. -/
def ofPlace (kind message : String) (machine : Machine) (place : Nat) : Report where
  kind
  message
  pc := .ofNat place
  opcode := machine.memory.toList[place]?.map Number.ofByte
  instruction := machine.memory.toList[place]?.map fun _ => (machine.decodeAt (.ofNat place)).text
  registers := machine.registers.toNumbers
  recent := (machine.recent.last (.ofNat 8)).map Number.ofNat
  windowStart := .ofNat (min place machine.memory.size - 8)
  windowBytes := ((machine.memory.toList.drop (min place machine.memory.size - 8)).take 16).map
    Number.ofByte

/-- A machine whose program counter is an integer can be described, once there are words for what
was raised. -/
theorem describe_ofNat {machine : Machine} {place : Nat} (thrown : Thrown)
    (pc : machine.pc = .ofNat place) (small : machine.memory.size < 2 ^ 52) :
    describe thrown machine =
      thrown.message.map fun message => ofPlace thrown.kind message machine place := by
  have start : (Number.ofNat 0).max
      (((Number.ofNat place).min (.ofNat machine.memory.size)).sub cellsBefore) =
        .ofNat (min place machine.memory.size - 8) := by
    show (Number.ofInt 0).max
      (((Number.ofInt place).min (.ofInt machine.memory.size)).sub (.ofInt 8)) = _
    rw [Number.min_ofInt, Number.sub_ofInt _ _ (by omega), Number.max_ofInt]
    exact congrArg Number.ofInt (by omega)
  have stop : (Number.ofNat machine.memory.size).min
      ((Number.ofNat (min place machine.memory.size - 8)).add (.ofNat cellsShown)) =
        .ofNat (min machine.memory.size (min place machine.memory.size - 8 + cellsShown)) := by
    show (Number.ofInt machine.memory.size).min ((Number.ofInt _).add (.ofInt 16)) = _
    rw [Number.add_ofInt _ _ (by omega), Number.min_ofInt]
    exact congrArg Number.ofInt (by unfold cellsShown; omega)
  have window := readWindow_shown machine.memory (min place machine.memory.size - 8) (by omega)
    (by omega)
  unfold describe
  cases thrown.message with
  | error raised => rfl
  | ok message =>
    unfold ofPlace
    simp only [pc, start, stop, window, ← Memory.map_cell_index?, Option.map_map]
    rfl

theorem exists_describe {machine : Machine} {place : Nat} {thrown : Thrown}
    (pc : machine.pc = .ofNat place) (small : machine.memory.size < 2 ^ 52)
    (legible : thrown.Legible) : ∃ report, describe thrown machine = .ok report := by
  obtain ⟨text, words⟩ := thrown.legible_iff.mp legible
  rw [describe_ofNat thrown pc small, words]
  exact ⟨_, rfl⟩

/-- The kind and the words of a report are those of what was raised, and its opcode is the cell at
the program counter. -/
theorem parts_of_describe {thrown : Thrown} {machine : Machine} {report : Report}
    (described : describe thrown machine = .ok report) :
    report.kind = thrown.kind ∧ thrown.message = .ok report.message ∧
      report.opcode = (machine.pc.index? machine.memory.size).map
        fun index => .ofByte (machine.memory.cell index) := by
  unfold describe at described
  cases words : thrown.message with
  | error raised =>
    rw [words] at described
    cases described
  | ok text =>
    simp only [words, bind, Except.bind] at described
    split at described
    · cases described
    · cases described
      exact ⟨rfl, rfl, rfl⟩

/-! ### The opcode -/

/-- Whether a report shows an instruction where the machine failed. A report of a failed fetch shows
no opcode, one of an unknown opcode a byte that stands for none. -/
def decoded (report : Report) : Bool :=
  (report.opcode.bind Opcode.ofNumber?).isSome

theorem decoded_of_describe {thrown : Thrown} {machine : Machine} {report : Report}
    (described : describe thrown machine = .ok report) :
    report.decoded = machine.fetched.isOk := by
  unfold decoded Machine.fetched Storage.fetched
  rw [(parts_of_describe described).2.2]
  cases machine.pc.index? machine.memory.size with
  | none => rfl
  | some index =>
    simp only [Option.map_some, Option.bind_some, Opcode.ofNumber?_ofByte]
    cases Opcode.decode? (machine.memory.cell index) <;> rfl

end Report

end EightBit
