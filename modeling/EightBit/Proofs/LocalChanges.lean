/-
The checksum tells apart two messages of one length that differ only within four places in a row. A
bit that is taken in leaves the top of the register clear only if it equals the bit that falls out,
so the register before can always be recovered, and a row of up to 32 bits that empties a register
consists of the register's own bits. By linearity two rows that take one register to the same place
differ by a row that takes an empty register to an empty one, which has no ones in it. What follows
the four places cannot make up for the difference, because no register is lost.
-/

import EightBit.Proofs.Checksum
import EightBit.Proofs.Runner

namespace EightBit.Checksum

/-! ### The register before a bit -/

/-- The polynomial has a one at the top, so it is taken exactly if the top is set. -/
theorem getLsbD_zero_of_takeBit {register : BitVec 32} {bit : Bool}
    (clear : (takeBit register bit).getLsbD 31 = false) : register.getLsbD 0 = bit := by
  have top : (register >>> 1).getLsbD 31 = false := by
    rw [BitVec.getLsbD_ushiftRight]
    exact register.getLsbD_of_ge 32 (Nat.le_refl 32)
  rw [takeBit_eq_xor, BitVec.getLsbD_xor, top] at clear
  cases taken : register.getLsbD 0 ^^ bit with
  | false => exact bne_eq_false_iff_eq.mp taken
  | true =>
    rw [taken] at clear
    exact absurd clear (by decide)

theorem takeBit_own (register : BitVec 32) :
    takeBit register (register.getLsbD 0) = register >>> 1 := by
  unfold takeBit
  rw [Bool.xor_self]
  rfl

theorem eq_zero_of_takeBit {register : BitVec 32} (empty : takeBit register false = 0#32) :
    register = 0#32 := by
  have lowest : register.getLsbD 0 = false := getLsbD_zero_of_takeBit (by rw [empty]; rfl)
  have others : register >>> 1 = 0#32 := by
    rw [← takeBit_own, lowest, empty]
  refine BitVec.eq_of_getLsbD_eq fun place _ => ?_
  rw [BitVec.getLsbD_zero]
  cases place with
  | zero => exact lowest
  | succ place =>
    have shifted := congrArg (BitVec.getLsbD · place) others
    rw [BitVec.getLsbD_ushiftRight, Nat.add_comm, BitVec.getLsbD_zero] at shifted
    exact shifted

/-- No register is lost by taking a bit. -/
theorem takeBit_injective (bit : Bool) : Function.Injective (takeBit · bit) := by
  intro first second same
  have sum := takeBit_xor first second bit bit
  rw [Bool.xor_self, show takeBit first bit = takeBit second bit from same, BitVec.xor_self] at sum
  exact BitVec.xor_eq_zero_iff.mp (eq_zero_of_takeBit sum)

theorem foldl_takeBit_injective (row : List Bool) :
    Function.Injective fun register => row.foldl takeBit register := by
  induction row with
  | nil => exact fun _ _ same => same
  | cons bit row inductionHypothesis =>
    exact fun _ _ same => takeBit_injective bit (inductionHypothesis same)

/-! ### Rows of up to 32 bits -/

/-- A register is fed its own low bits if as many bits at its top are clear afterwards. -/
theorem own_of_feed {register : BitVec 32} {bit : Nat → Bool} {count : Nat} (short : count ≤ 32)
    (clear : ∀ place, 32 ≤ place + count →
      (feed (List.range count) bit register).getLsbD place = false) :
    ∀ place < count, bit place = register.getLsbD place := by
  induction count with
  | zero => exact fun _ below => absurd below (Nat.not_lt_zero _)
  | succ count inductionHypothesis =>
    have last : feed (List.range (count + 1)) bit register =
        takeBit (feed (List.range count) bit register) (bit count) := by
      rw [feed, List.range_succ, List.foldl_append]
      rfl
    rw [last] at clear
    -- the last bit falls out again, so one bit less is known to be clear before it
    have fallen := getLsbD_zero_of_takeBit (clear 31 (by omega))
    rw [← fallen, takeBit_own] at clear
    have earlier := inductionHypothesis (by omega) fun place high => by
      cases place with
      | zero => omega
      | succ place =>
        have shifted := clear place (by omega)
        rw [BitVec.getLsbD_ushiftRight, Nat.add_comm] at shifted
        exact shifted
    intro place below
    rcases Nat.lt_succ_iff_lt_or_eq.mp below with below | rfl
    · exact earlier place below
    · rw [← fallen, feed_own earlier, BitVec.getLsbD_ushiftRight]
      rfl

theorem foldl_takeBit (row : List Bool) (register : BitVec 32) :
    row.foldl takeBit register = feed (List.range row.length) (row.getD · false) register := by
  have listed : row = (List.range row.length).map (row.getD · false) := by
    refine List.ext_getElem (by simp) fun place below _ => ?_
    simp [below]
  exact (congrArg (List.foldl takeBit register) listed).trans List.foldl_map

/-- Two rows of up to 32 bits never take a register to the same place. -/
theorem eq_of_foldl_takeBit {first second : List Bool} {register : BitVec 32}
    (lengths : first.length = second.length) (short : first.length ≤ 32)
    (same : first.foldl takeBit register = second.foldl takeBit register) : first = second := by
  rw [foldl_takeBit, foldl_takeBit, ← lengths] at same
  have sum := feed_xor (List.range first.length) (first.getD · false) (second.getD · false)
    register register
  rw [same, BitVec.xor_self, BitVec.xor_self] at sum
  have own := own_of_feed short fun place _ => by rw [sum]; exact BitVec.getLsbD_zero
  refine List.ext_getElem lengths fun place below further => ?_
  have equal := own place below
  rw [BitVec.getLsbD_zero] at equal
  simpa [below, further] using bne_eq_false_iff_eq.mp equal

/-! ### Messages -/

theorem bits_injective : Function.Injective bits := by
  intro first second same
  refine UInt8.toBitVec_inj.mp (BitVec.eq_of_getLsbD_eq fun place below => ?_)
  exact List.map_inj_left.mp same place (List.mem_range.mpr below)

theorem length_bits (byte : UInt8) : (bits byte).length = 8 := by
  rw [bits, List.length_map, List.length_range]

theorem length_flatMap_bits (message : List UInt8) :
    (message.flatMap bits).length = 8 * message.length := by
  induction message with
  | nil => rfl
  | cons byte message inductionHypothesis =>
    rw [List.flatMap_cons, List.length_append, length_bits, inductionHypothesis, List.length_cons]
    omega

theorem eq_of_flatMap_bits {first second : List UInt8} (lengths : first.length = second.length)
    (same : first.flatMap bits = second.flatMap bits) : first = second := by
  induction first generalizing second with
  | nil => exact (List.length_eq_zero_iff.mp lengths.symm).symm
  | cons byte first inductionHypothesis =>
    obtain ⟨other, second, rfl⟩ := List.exists_cons_of_length_eq_add_one lengths.symm
    rw [List.flatMap_cons, List.flatMap_cons] at same
    have eight : (bits byte).length = (bits other).length :=
      (length_bits byte).trans (length_bits other).symm
    obtain ⟨front, behind⟩ := List.append_inj same eight
    rw [bits_injective front, inductionHypothesis (Nat.succ.inj lengths) behind]

/-- What stands around a change of up to four bytes does not hide it. -/
theorem ofBytes_ne_of_change (front rest : List UInt8) {middle other : List UInt8}
    (lengths : middle.length = other.length) (short : middle.length ≤ 4) (differ : middle ≠ other) :
    ofBytes (front ++ (middle ++ rest)) ≠ ofBytes (front ++ (other ++ rest)) := by
  intro same
  have registers := congrArg UInt32.toBitVec same
  rw [toBitVec_ofBytes, toBitVec_ofBytes, bitwise, bitwise, BitVec.not_inj] at registers
  simp only [List.flatMap_append, List.foldl_append] at registers
  have reached := foldl_takeBit_injective (rest.flatMap bits) registers
  refine differ (eq_of_flatMap_bits lengths (eq_of_foldl_takeBit ?_ ?_ reached))
  · rw [length_flatMap_bits, length_flatMap_bits, lengths]
  · rw [length_flatMap_bits]
    omega

/-- The differences of two messages all lie within four places in a row. -/
def DifferLocally (first second : List UInt8) : Prop :=
  ∃ start, ∀ place, first[place]? ≠ second[place]? → start ≤ place ∧ place < start + 4

theorem ofBytes_ne_of_differLocally {first second : List UInt8}
    (lengths : first.length = second.length) (differ : first ≠ second)
    (within : DifferLocally first second) : ofBytes first ≠ ofBytes second := by
  obtain ⟨start, within⟩ := within
  have agree {place : Nat} (outside : place < start ∨ start + 4 ≤ place) :
      first[place]? = second[place]? := by
    refine Decidable.not_not.mp fun other => ?_
    have inside := within place other
    omega
  have front : first.take start = second.take start := by
    refine List.ext_getElem? fun place => ?_
    rw [List.getElem?_take, List.getElem?_take]
    split
    · exact agree (Or.inl ‹_›)
    · rfl
  have rest : (first.drop start).drop 4 = (second.drop start).drop 4 := by
    refine List.ext_getElem? fun place => ?_
    rw [List.drop_drop, List.drop_drop, List.getElem?_drop, List.getElem?_drop]
    exact agree (Or.inr (Nat.le_add_right _ _))
  have split (message : List UInt8) : message = message.take start ++
      ((message.drop start).take 4 ++ (message.drop start).drop 4) := by
    rw [List.take_append_drop, List.take_append_drop]
  rw [split first, split second, front, rest]
  refine ofBytes_ne_of_change _ _ ?_ (List.length_take_le 4 _) fun middle => differ ?_
  · rw [List.length_take, List.length_take, List.length_drop, List.length_drop, lengths]
  · rw [split first, split second, front, middle, rest]

end EightBit.Checksum

/-! ### Final memories -/

namespace EightBit

namespace Memory

theorem cellOrZero_eq_getD (memory : Memory) (place : Nat) :
    memory.cellOrZero place = memory.toList[place]?.getD 0 := by
  unfold cellOrZero toList
  rw [Array.getElem?_toList]

/-- Memories of one size hold the same at a place exactly if they read the same there. -/
theorem getElem?_toList_eq_iff {first second : Memory} (sizes : first.size = second.size)
    (place : Nat) :
    first.toList[place]? = second.toList[place]? ↔
      first.cellOrZero place = second.cellOrZero place := by
  have lengths : first.toList.length = second.toList.length := sizes
  rw [cellOrZero_eq_getD, cellOrZero_eq_getD]
  by_cases inside : place < first.toList.length
  · rw [List.getElem?_eq_getElem inside, List.getElem?_eq_getElem (lengths ▸ inside)]
    exact Option.some_inj
  · have outside := Nat.not_lt.mp inside
    rw [List.getElem?_eq_none outside, List.getElem?_eq_none (lengths ▸ outside)]
    exact iff_of_true rfl rfl

end Memory

namespace Runner

section

variable {Host : Type} {callbacks : Callbacks Host} {limit : Number} {program : List UInt8}
  {host : Host} {result : RunRecord × Host}

/-- Only a program that fits has a run. -/
theorem Returns.short (returned : Returns callbacks limit program host result) :
    program.length ≤ 256 := by
  obtain ⟨turns, ended⟩ := returned
  unfold execute start at ended
  cases placed : Machine.load program (.create (.blank Memory.standardSize)) with
  | error fault after =>
    rw [placed] at ended
    cases ended
  | ok _ machine =>
    have size : (Machine.create (.blank Memory.standardSize)).memory.size = 256 :=
      Memory.size_blank Memory.standardSize
    rw [← size]
    exact (Machine.eq_loaded_of_load placed).1

/-- A run leaves a memory of 256 cells and its checksum. -/
theorem Returns.checksum (returned : Returns callbacks limit program host result) :
    result.1.memory.size = 256 ∧ result.1.checksum = Checksum.ofBytes result.1.memory.toList := by
  have short := returned.short
  obtain ⟨turns, ended⟩ := returned
  obtain ⟨ending, after, fault, progress, same, -⟩ := exists_ending short ended
  cases same
  exact ⟨(standard_of_over progress).size, rfl⟩

end

/-- What some run of some program has left behind. -/
def IsResult (record : RunRecord) : Prop :=
  ∃ (Host : Type) (callbacks : Callbacks Host) (limit : Number) (program : List UInt8)
    (host after : Host), Returns callbacks limit program host (record, after)

/-- Two messages of one length that differ, but only within four places in a row, have different
checksums. So have two runs that leave memories which differ in a single cell. -/
theorem local_change_detected :
    (∀ first second : List UInt8, first.length = second.length → first ≠ second →
      Checksum.DifferLocally first second → Checksum.ofBytes first ≠ Checksum.ofBytes second) ∧
    ∀ (record other : RunRecord) (address : Nat), IsResult record → IsResult other →
      (∀ place, record.memory.cellOrZero place ≠ other.memory.cellOrZero place ↔
        place = address) →
      record.checksum ≠ other.checksum := by
  refine ⟨fun first second lengths differ within =>
    Checksum.ofBytes_ne_of_differLocally lengths differ within, ?_⟩
  rintro record other address ⟨_, _, _, _, _, _, returned⟩ ⟨_, _, _, _, _, _, again⟩ single
  obtain ⟨size, own⟩ := returned.checksum
  obtain ⟨otherSize, otherOwn⟩ := again.checksum
  have sizes : record.memory.size = other.memory.size := size.trans otherSize.symm
  rw [own, otherOwn]
  refine Checksum.ofBytes_ne_of_differLocally sizes (fun same => ?_)
    ⟨address, fun place differ => ?_⟩
  · refine (single address).mpr rfl ((Memory.getElem?_toList_eq_iff sizes address).mp ?_)
    rw [same]
  · have changed : place = address :=
      (single place).mp fun same => differ ((Memory.getElem?_toList_eq_iff sizes place).mpr same)
    omega

/-- A run without callbacks that is over in one turn leaves its memory. -/
theorem exists_isResult {program cells : List UInt8}
    (ran : ((execute ⟨none, none⟩ (.ofNat 0) 1 program ()).any fun outcome =>
      outcome.toOption.any fun result => result.1.memory.toList = cells) = true) :
    ∃ record, IsResult record ∧ record.memory.toList = cells := by
  obtain ⟨outcome, executed, known⟩ := (Option.any_eq_true _ _).mp ran
  obtain ⟨result, returned, facts⟩ := (Option.any_eq_true _ _).mp known
  cases outcome with
  | error fault => cases returned
  | ok record =>
    cases returned
    exact ⟨result.1, ⟨_, _, _, _, _, _, 1, executed⟩, of_decide_eq_true facts⟩

/-- Four bytes in the middle of a message turned round, and two programs that halt at once, the
second with a byte behind its end. -/
theorem turned_round_detected :
    Checksum.ofBytes [9, 1, 2, 3, 4, 8, 8] ≠ Checksum.ofBytes [9, 4, 3, 2, 1, 8, 8] ∧
      ∃ record other, (IsResult record ∧ record.memory.toList = 1 :: 0 :: List.replicate 254 0) ∧
        (IsResult other ∧ other.memory.toList = 1 :: 7 :: List.replicate 254 0) ∧
        record.checksum ≠ other.checksum := by
  obtain ⟨record, left, cells⟩ :=
    exists_isResult (show ((execute ⟨none, none⟩ (.ofNat 0) 1 [1] ()).any fun outcome =>
      outcome.toOption.any fun result =>
        result.1.memory.toList = 1 :: 0 :: List.replicate 254 0) = true by decide +kernel)
  obtain ⟨other, again, otherCells⟩ :=
    exists_isResult (show ((execute ⟨none, none⟩ (.ofNat 0) 1 [1, 7] ()).any fun outcome =>
      outcome.toOption.any fun result =>
        result.1.memory.toList = 1 :: 7 :: List.replicate 254 0) = true by decide +kernel)
  refine ⟨local_change_detected.1 _ _ rfl (by decide) ⟨1, fun place differ => ?_⟩,
    record, other, ⟨left, cells⟩, ⟨again, otherCells⟩,
    local_change_detected.2 record other 1 left again fun place => ?_⟩
  · rcases place with _ | _ | _ | _ | _ | place
    · exact absurd rfl differ
    · omega
    · omega
    · omega
    · omega
    · exact absurd rfl differ
  · rw [Memory.cellOrZero_eq_getD, Memory.cellOrZero_eq_getD, cells, otherCells]
    rcases place with _ | _ | place
    · decide
    · decide
    · refine iff_of_false (fun differ => differ rfl) (by omega)

end Runner

end EightBit
