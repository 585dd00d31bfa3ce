/-
The checksum is the one that takes a message bit by bit. Taking a bit is linear in the register and
the bit together, and a register that is fed its own low bits only shifts them out. What a byte does
to the register is therefore the sum of two parts: the register fed its own low byte, which comes to
a shift by eight places, and an empty register fed the byte in which the two differ, which is what
the table holds. A host whose words are signed integers keeps the same register. Some of its values
are negative on the way, but each stands for the word that the register holds, and the last shift
makes the result unsigned.
-/

import EightBit.Checksum

namespace EightBit.Checksum

/-! ### Bit by bit -/

/-- Takes one bit of a message into the register. The bit is added to the one that falls out, and
where they differ the reflected polynomial is taken. -/
def takeBit (register : BitVec 32) (bit : Bool) : BitVec 32 :=
  if register.getLsbD 0 ^^ bit then (register >>> 1) ^^^ 0xEDB88320#32 else register >>> 1

/-- The bits of a byte, least significant first. -/
def bits (byte : UInt8) : List Bool :=
  (List.range 8).map byte.toBitVec.getLsbD

/-- The checksum by its definition: the register starts with all ones, takes every bit of the
message in turn, and is complemented. -/
def bitwise (bytes : List UInt8) : BitVec 32 :=
  ~~~ (bytes.flatMap bits).foldl takeBit (BitVec.allOnes 32)

theorem takeBit_eq_xor (register : BitVec 32) (bit : Bool) :
    takeBit register bit =
      (register >>> 1) ^^^ if register.getLsbD 0 ^^ bit then 0xEDB88320#32 else 0#32 := by
  unfold takeBit
  split
  · rfl
  · rw [BitVec.xor_zero]

/-- Taking a bit is linear. -/
theorem takeBit_xor (first second : BitVec 32) (bit other : Bool) :
    takeBit (first ^^^ second) (bit ^^ other) = takeBit first bit ^^^ takeBit second other := by
  have sum : ((first ^^^ second).getLsbD 0 ^^ (bit ^^ other)) =
      ((first.getLsbD 0 ^^ bit) ^^ (second.getLsbD 0 ^^ other)) := by
    simp only [BitVec.getLsbD_xor, Bool.xor_assoc, Bool.xor_left_comm]
  have taken (left right : Bool) : (if left ^^ right then 0xEDB88320#32 else 0#32) =
      (if left then 0xEDB88320#32 else 0#32) ^^^ if right then 0xEDB88320#32 else 0#32 := by
    cases left <;> cases right <;> rfl
  simp only [takeBit_eq_xor, sum, taken, BitVec.ushiftRight_xor_distrib]
  ac_rfl

/-! ### Rows of bits -/

/-- The register after the bits that stand at some places of a row. -/
def feed (places : List Nat) (bit : Nat → Bool) (register : BitVec 32) : BitVec 32 :=
  places.foldl (fun register place => takeBit register (bit place)) register

theorem foldl_bits (byte : UInt8) (register : BitVec 32) :
    (bits byte).foldl takeBit register = feed (List.range 8) byte.toBitVec.getLsbD register :=
  List.foldl_map

theorem feed_xor (places : List Nat) (bit other : Nat → Bool) (first second : BitVec 32) :
    feed places (fun place => bit place ^^ other place) (first ^^^ second) =
      feed places bit first ^^^ feed places other second := by
  induction places generalizing first second with
  | nil => rfl
  | cons place rest inductionHypothesis =>
    simp only [feed, List.foldl_cons, takeBit_xor] at inductionHypothesis ⊢
    exact inductionHypothesis _ _

/-- Fed its own low bits, a register shifts them out and never takes the polynomial. -/
theorem feed_own {register : BitVec 32} {bit : Nat → Bool} {count : Nat}
    (own : ∀ place < count, bit place = register.getLsbD place) :
    feed (List.range count) bit register = register >>> count := by
  induction count with
  | zero => simp [feed]
  | succ count inductionHypothesis =>
    have shifted : (List.range count).foldl _ register = register >>> count :=
      inductionHypothesis fun place less => own place (Nat.lt_succ_of_lt less)
    rw [feed, List.range_succ, List.foldl_append, shifted]
    simp [takeBit, own count (Nat.lt_succ_self count), BitVec.shiftRight_add]

/-! ### The table -/

theorem and_one (register : UInt32) :
    register &&& 1 = if register.toBitVec.getLsbD 0 then 1 else 0 := by
  rw [← UInt32.toBitVec_inj, UInt32.toBitVec_and]
  refine BitVec.and_one_eq_setWidth_ofBool_getLsbD.trans ?_
  cases register.toBitVec.getLsbD 0 <;> rfl

/-- A shift is a bit of zero taken in. -/
theorem toBitVec_shift (register : UInt32) :
    (shift register).toBitVec = takeBit register.toBitVec false := by
  simp only [shift, takeBit, and_one, Bool.xor_false]
  cases register.toBitVec.getLsbD 0
  · rfl
  · exact BitVec.xor_comm _ _

theorem toBitVec_shifts (places : List Nat) (register : UInt32) :
    (shifts places.length register).toBitVec = feed places (fun _ => false) register.toBitVec := by
  induction places generalizing register with
  | nil => rfl
  | cons place rest inductionHypothesis =>
    rw [List.length_cons, shifts, inductionHypothesis, toBitVec_shift]
    rfl

theorem entry_eq_shifts (byte : UInt8) : entry byte = shifts 8 byte.toUInt32 := by
  rw [← UInt32.ofNat_uInt8ToNat]
  exact Vector.getElem_ofFn byte.toNat_lt

/-- The entry of a byte is what an empty register becomes when it is fed the byte. -/
theorem toBitVec_entry (byte : UInt8) :
    (entry byte).toBitVec = feed (List.range 8) byte.toBitVec.getLsbD 0#32 := by
  have own : feed (List.range 8) byte.toBitVec.getLsbD byte.toUInt32.toBitVec = 0#32 := by
    rw [feed_own fun place less => by simp; omega]
    ext place bound
    simp
  -- no bits at all are the bits of the byte fed twice
  have sum := feed_xor (List.range 8) byte.toBitVec.getLsbD byte.toBitVec.getLsbD
    byte.toUInt32.toBitVec 0#32
  rw [entry_eq_shifts]
  refine (toBitVec_shifts (List.range 8) _).trans ?_
  rw [own] at sum
  simpa using sum

/-- A byte taken by the table is its bits taken in turn. -/
theorem toBitVec_update (register : UInt32) (byte : UInt8) :
    (update register byte).toBitVec = (bits byte).foldl takeBit register.toBitVec := by
  have own : feed (List.range 8) register.toUInt8.toBitVec.getLsbD register.toBitVec =
      register.toBitVec >>> 8 :=
    feed_own fun place less => by simp [less]
  have split : byte.toBitVec.getLsbD = fun place =>
      register.toUInt8.toBitVec.getLsbD place ^^
        (register.toUInt8 ^^^ byte).toBitVec.getLsbD place := by
    funext place
    simp
  have sum := feed_xor (List.range 8) register.toUInt8.toBitVec.getLsbD
    (register.toUInt8 ^^^ byte).toBitVec.getLsbD register.toBitVec 0#32
  rw [← split, BitVec.xor_zero, own, ← toBitVec_entry] at sum
  rw [foldl_bits, sum]
  rfl

theorem toBitVec_ofBytes (bytes : List UInt8) : (ofBytes bytes).toBitVec = bitwise bytes := by
  have folded : bytes.foldl (fun register byte => (bits byte).foldl takeBit register)
      initial.toBitVec = (bytes.foldl update initial).toBitVec :=
    List.foldl_hom UInt32.toBitVec fun register byte => (toBitVec_update register byte).symm
  rw [bitwise, List.foldl_flatMap, ofBytes, UInt32.toBitVec_not, ← folded]
  rfl

/-! ### On signed integers -/

namespace Signed

/-- The word that an integer stands for. -/
def word (value : Int) : UInt32 :=
  ⟨BitVec.ofInt 32 value⟩

def xor (left right : Int) : Int :=
  (word left ^^^ word right).toBitVec.toInt

def and (left right : Int) : Int :=
  (word left &&& word right).toBitVec.toInt

def complement (value : Int) : Int :=
  (~~~ word value).toBitVec.toInt

/-- The only operation with an unsigned result. -/
def shiftRight (value : Int) (count : UInt32) : Int :=
  (word value >>> count).toNat

def shift (register : Int) : Int :=
  if and register 1 ≠ 0 then xor 0xEDB88320 (shiftRight register 1) else shiftRight register 1

def shifts : Nat → Int → Int
  | 0, register => register
  | count + 1, register => shifts count (shift register)

def entry (index : Int) : Int :=
  shiftRight (shifts 8 index) 0

def update (register : Int) (byte : UInt8) : Int :=
  xor (shiftRight register 8) (entry (and (xor register byte.toNat) 0xFF))

/-- The checksum, computed on signed integers. -/
def ofBytes (bytes : List UInt8) : Int :=
  shiftRight (complement (bytes.foldl update (shiftRight (complement 0) 0))) 0

theorem word_toInt (register : UInt32) : word register.toBitVec.toInt = register :=
  congrArg UInt32.ofBitVec BitVec.ofInt_toInt

theorem word_toNat (register : UInt32) : word register.toNat = register := by
  refine congrArg UInt32.ofBitVec ((BitVec.ofInt_natCast 32 register.toNat).trans ?_)
  exact (BitVec.ofNat_toNat 32 register.toBitVec).trans (BitVec.setWidth_eq _)

@[simp] theorem word_xor (left right : Int) : word (xor left right) = word left ^^^ word right :=
  word_toInt _

@[simp] theorem word_and (left right : Int) : word (and left right) = word left &&& word right :=
  word_toInt _

@[simp] theorem word_complement (value : Int) : word (complement value) = ~~~ word value :=
  word_toInt _

@[simp] theorem word_shiftRight (value : Int) (count : UInt32) :
    word (shiftRight value count) = word value >>> count :=
  word_toNat _

theorem and_one_eq_zero_iff (register : Int) :
    and register 1 = 0 ↔ (word register).toBitVec.getLsbD 0 = false := by
  show (word register &&& 1).toBitVec.toInt = 0 ↔ _
  rw [and_one]
  cases (word register).toBitVec.getLsbD 0 <;> decide

theorem word_shift (register : Int) : word (shift register) = Checksum.shift (word register) := by
  simp only [shift, Checksum.shift, ne_eq, and_one_eq_zero_iff, and_one]
  cases (word register).toBitVec.getLsbD 0
  · exact word_shiftRight register 1
  · exact (word_xor _ _).trans (congrArg _ (word_shiftRight register 1))

theorem word_shifts (count : Nat) (register : Int) :
    word (shifts count register) = Checksum.shifts count (word register) := by
  induction count generalizing register with
  | zero => rfl
  | succ count inductionHypothesis =>
    rw [shifts, inductionHypothesis, word_shift, Checksum.shifts]

theorem and_low_byte (register : UInt32) : register &&& 0xFF = register.toUInt8.toUInt32 := by
  rw [← UInt32.toNat_inj, UInt32.toNat_and]
  exact Nat.and_two_pow_sub_one_eq_mod register.toNat 8

theorem word_update (register : Int) (byte : UInt8) :
    word (update register byte) = Checksum.update (word register) byte := by
  have taken : word byte.toNat = byte.toUInt32 := word_toNat byte.toUInt32
  have index : word (and (xor register byte.toNat) 0xFF) =
      ((word register).toUInt8 ^^^ byte).toUInt32 := by
    rw [word_and, word_xor, taken]
    refine (and_low_byte _).trans ?_
    simp
  simp only [update, Checksum.update, entry, word_xor, word_shiftRight, word_shifts, index,
    entry_eq_shifts]
  rfl

theorem ofBytes_eq_toNat (bytes : List UInt8) : ofBytes bytes = (Checksum.ofBytes bytes).toNat := by
  have folded : bytes.foldl Checksum.update (word (shiftRight (complement 0) 0)) =
      word (bytes.foldl update (shiftRight (complement 0) 0)) :=
    List.foldl_hom word fun register byte => (word_update register byte).symm
  rw [ofBytes, shiftRight, word_complement, ← folded]
  rfl

end Signed

/-- For every message the checksum by the table is the one that is taken bit by bit. Computed on
signed integers it is the same, and the result is an unsigned word. -/
theorem checksum_bit_by_bit (bytes : List UInt8) :
    (ofBytes bytes).toBitVec = bitwise bytes ∧
      Signed.ofBytes bytes = (ofBytes bytes).toNat ∧
      0 ≤ Signed.ofBytes bytes ∧ Signed.ofBytes bytes < 4294967296 := by
  refine ⟨toBitVec_ofBytes bytes, Signed.ofBytes_eq_toNat bytes, ?_, ?_⟩
  · rw [Signed.ofBytes_eq_toNat]
    exact Int.natCast_nonneg _
  · rw [Signed.ofBytes_eq_toNat]
    exact Int.ofNat_lt.mpr (ofBytes bytes).toNat_lt

-- the digits from one to nine, as text
example : bitwise [0x31, 0x32, 0x33, 0x34, 0x35, 0x36, 0x37, 0x38, 0x39] = 0xCBF43926#32 := by
  decide +kernel

-- behind the second of them the signed register is negative
example : [0x31, 0x32].foldl Signed.update (Signed.shiftRight (Signed.complement 0) 0) < 0 := by
  decide +kernel

end EightBit.Checksum
