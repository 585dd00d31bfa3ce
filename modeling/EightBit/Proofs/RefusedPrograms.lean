/-
What a refused program leaves behind. A load clears memory before it finds out whether the program
fits. When the program is too long the load fails, and everything but memory is as it was: the
machine still counts as loaded and stands where it stood, but the program it was executing is gone.
Such a load goes unnoticed only if memory held nothing but zeros. A machine that was under way
cannot go on, since no instruction can be fetched from cleared memory. Placing the same bytes in
memory directly fails in the same words and changes nothing.
-/

import EightBit.Proofs.FreshStart

namespace EightBit

variable {Host : Type}

/-! ### Lengths beyond the exact integers

The length of a program is compared as a number. Rounding may move it, but not below 2^53, and no
memory is that large. -/

/-- From 2^53 on, integers have a spacing of at least two, and lie no less than 2^52 spacings from
zero. -/
theorem exists_spacing {value : Nat} (large : 2 ^ 53 ≤ value) :
    ∃ power : Nat, 2 ≤ power ∧ 2 ^ 52 * power ≤ value ∧ twoTo (spacingExponent value) = power := by
  have nonzero : value ≠ 0 := by
    rintro rfl
    exact absurd large (by decide)
  have digits : 53 ≤ value.log2 := (Nat.le_log2 nonzero).mpr large
  have exponent : spacingExponent value = ((value.log2 - 52 : Nat) : Int) := by
    unfold spacingExponent
    rw [Rat.abs_of_nonneg (Rat.natCast_nonneg), binaryExponent_natCast nonzero]
    omega
  refine ⟨2 ^ (value.log2 - 52), ?_, ?_, ?_⟩
  · have least : 2 ^ 1 ≤ 2 ^ (value.log2 - 52) := Nat.pow_le_pow_right (by decide) (by omega)
    exact least
  · rw [← Nat.pow_add, show 52 + (value.log2 - 52) = value.log2 by omega]
    exact Nat.log2_self_le nonzero
  · rw [exponent, twoTo_natCast]

theorem Number.lt_nearest {bound value : Nat} (small : bound < 2 ^ 53) (large : 2 ^ 53 ≤ value) :
    (Number.ofNat bound).lt (nearest value) = true := by
  obtain ⟨power, two, spacings, unit⟩ := exists_spacing large
  have positive : (0 : Rat) < power := Rat.natCast_pos.mpr (by omega)
  have quotient : ((2 ^ 52 : Nat) : Rat) ≤ value / power := by
    refine Rat.not_lt.mp fun less => ?_
    rw [Rat.div_lt_iff positive, ← Rat.natCast_mul, Rat.natCast_lt_natCast] at less
    omega
  have rounded : ((2 ^ 53 : Nat) : Rat) ≤ roundHalfEven (value / power) * power := by
    have kept : ((2 ^ 52 : Nat) : Int) ≤ roundHalfEven (value / power) := le_roundHalfEven quotient
    refine Rat.le_trans ?_
      (Rat.mul_le_mul_of_nonneg_right (Rat.intCast_le_intCast.mpr kept) (Rat.le_of_lt positive))
    show ((2 ^ 53 : Nat) : Rat) ≤ ((2 ^ 52 : Nat) : Rat) * power
    rw [← Rat.natCast_mul, Rat.natCast_le_natCast]
    omega
  unfold nearest
  simp only [unit]
  split
  · rw [decide_eq_false (Rat.not_lt.mpr Rat.natCast_nonneg)]
    rfl
  · refine decide_eq_true (Rat.not_le.mp fun above => ?_)
    have reached : ((2 ^ 53 : Nat) : Rat) ≤ (bound : Rat) := Rat.le_trans rounded above
    rw [Rat.natCast_le_natCast] at reached
    omega

/-! ### Refusal -/

/-- The fault of a program that is longer than memory. -/
def Memory.tooSmall (memory : Memory) (program : List UInt8) : Fault :=
  .load (.doesNotFit program.length (.ofNat 0) memory.size) none

theorem Memory.message_tooSmall (memory : Memory) (program : List UInt8) :
    (memory.tooSmall program).message =
      "cannot fit " ++ program.length.repr ++ " bytes at 0, memory holds " ++ memory.size.repr := by
  have zero : (Number.ofNat 0).text = "0" := by decide +kernel
  show "cannot fit " ++ program.length.repr ++ " bytes at " ++ (Number.ofNat 0).text ++
    ", memory holds " ++ memory.size.repr = _
  rw [zero]
  simp only [String.append_assoc]
  rfl

theorem Memory.load_of_longer {memory : Memory} {program : List UInt8}
    (longer : memory.size < program.length) (small : memory.size < 2 ^ 53) :
    memory.load program (.ofNat 0) = .error (memory.tooSmall program) := by
  have reach : (Number.ofNat memory.size).lt ((Number.ofNat 0).add (.ofNat program.length)) =
      true := by
    by_cases large : 2 ^ 53 ≤ program.length
    · have sum : (Number.ofNat 0).add (.ofNat program.length) =
          Number.nearest program.length := by
        show Number.nearest (((0 : Int) : Rat) + ((program.length : Int) : Rat)) = _
        rw [← Rat.intCast_add, Int.zero_add]
        rfl
      rw [sum]
      exact Number.lt_nearest small large
    · have sum : (Number.ofNat 0).add (.ofNat program.length) = .ofNat program.length := by
        have unrounded := Number.add_ofInt 0 program.length (by omega)
        rwa [Int.zero_add] at unrounded
      rw [sum, Number.lt_ofNat]
      exact decide_eq_true longer
  unfold load tooSmall
  simp only [reach, Bool.or_true, if_true]

namespace Machine

variable {machine : Machine} {program : List UInt8}

/-- The machine with its memory cleared. -/
def emptied (machine : Machine) : Machine :=
  { machine with memory := machine.memory.clear }

theorem load_of_longer (longer : machine.memory.size < program.length)
    (small : machine.memory.size < 2 ^ 53) :
    load program machine = .error (machine.memory.tooSmall program) machine.emptied := by
  have cleared : machine.memory.clear.size = machine.memory.size := Memory.size_blank _
  rw [load_apply, Memory.load_of_longer (cleared.symm ▸ longer) (cleared.symm ▸ small)]
  unfold Memory.tooSmall
  rw [cleared]
  rfl

theorem emptied_eq_iff :
    machine.emptied = machine ↔ ∀ cell ∈ machine.memory.toList, cell = 0 := by
  have cleared : machine.memory.clear.toList = List.replicate machine.memory.size 0 :=
    Array.toList_replicate
  constructor
  · intro same cell member
    have cells : machine.memory.clear = machine.memory := congrArg (·.memory) same
    rw [← cells, cleared] at member
    exact List.eq_of_mem_replicate member
  · intro zeros
    have cells : machine.memory.clear = machine.memory :=
      congrArg Memory.mk (Array.toList_inj.mp
        (cleared.trans (List.eq_replicate_iff.mpr ⟨rfl, zeros⟩).symm))
    unfold emptied
    rw [cells]

/-- There is no instruction in cleared memory. -/
theorem fetched_emptied (machine : Machine) : ∃ fault, machine.emptied.fetched = .error fault := by
  cases found : machine.emptied.fetched with
  | error fault => exact ⟨fault, rfl⟩
  | ok instruction =>
    obtain ⟨-, -, decoded⟩ := (machine.emptied.fetched_eq_ok_iff _ _).mp found
    have zero (address : Nat) : machine.emptied.memory.cellOrZero address = 0 := by
      show (Array.replicate machine.memory.size (0 : UInt8))[address]?.getD 0 = 0
      rw [Array.getElem?_replicate]
      split <;> rfl
    rw [zero] at decoded
    cases decoded

end Machine

/-- Bytes that memory refuses to take leave storage as it was. -/
theorem Edit.apply_place_of_refused {storage : Storage} {data : List UInt8} {offset : Number}
    {fault : Fault} (refused : storage.memory.load data offset = .error fault) :
    (Edit.place data offset).apply storage = .error fault storage := by
  show (MonadExcept.ofExcept (storage.memory.load data offset) >>= _ :
    EStateM Fault Storage Answer) storage = _
  rw [refused]
  rfl

/-- What a refused program leaves of a session. -/
structure Refused (devices : Devices Host) (program : List UInt8) (before after : Session Host) :
    Prop where
  raised : (Command.load program).perform devices before =
    some (.error (.fault (before.machine.memory.tooSmall program)) after)
  said : (before.machine.memory.tooSmall program).kind = "LoadError" ∧
    (before.machine.memory.tooSmall program).message =
      "cannot fit " ++ program.length.repr ++ " bytes at 0, memory holds " ++
        before.machine.memory.size.repr
  cleared : after.machine.memory = .blank before.machine.memory.size
  /-- All but memory is as it was. -/
  kept : after = { before with
    machine := { before.machine with memory := after.machine.memory } }
  unnoticed : after = before ↔ ∀ cell ∈ before.machine.memory.toList, cell = 0
  /-- A machine that was not halted fails at its next step, whoever watches. -/
  stuck : before.machine.halted = false → ∃ fault, ∀ later : Devices Host,
    step later after = .error (.fault fault) after.halt
  /-- Placed in memory directly, the program is refused and nothing is changed. -/
  placed : (Command.edit (.place program (.ofNat 0))).perform devices before =
    some (.error (.fault (before.machine.memory.tooSmall program)) before)

/-- Whatever has been done with a machine, a program longer than its memory is refused, and the
refusal costs it the contents of memory and nothing else. -/
theorem refused_load_clears (size : Number) (memory : Memory)
    (made : Memory.ofSize size = .ok memory) (history : List (Devices Host × Command)) (host : Host)
    (reached : Session Host)
    (performed : Command.performAll history { machine := .create memory, host } = some reached)
    (program : List UInt8) (longer : memory.size < program.length) (devices : Devices Host) :
    ∃ after, Refused devices program reached after := by
  have same : reached.machine.memory.size = memory.size := Command.size_performAll performed
  have small : reached.machine.memory.size < 2 ^ 53 := by
    have bound := Memory.size_le_of_ofSize made
    unfold Memory.room at bound
    omega
  have tooLong : reached.machine.memory.size < program.length := same.symm ▸ longer
  refine ⟨{ reached with machine := reached.machine.emptied }, {
    raised := ?_
    said := ⟨rfl, Memory.message_tooSmall _ program⟩
    cleared := rfl
    kept := rfl
    unnoticed := ?_
    stuck := ?_
    placed := ?_ }⟩
  · rw [Command.perform, Machine.load_of_longer tooLong small]
    rfl
  · rw [← Machine.emptied_eq_iff]
    exact ⟨congrArg Session.machine, congrArg (Session.mk · reached.host)⟩
  · intro running
    obtain ⟨fault, fetched⟩ := reached.machine.fetched_emptied
    exact ⟨fault, fun later => step_unfetched later running fetched⟩
  · rw [Command.perform, Action.onStorage,
      Edit.apply_place_of_refused (Memory.load_of_longer tooLong small)]
    rfl

/-- A program that loads a register and prints it is loaded into six cells and has taken its first
step. -/
def underWay : List (Devices Unit × Command) :=
  [(silentDevices, .load [0x82, 0, 8, 0x47, 0, 0x01]), (silentDevices, .step)]

/-- Seven bytes do not fit. -/
theorem underWay_refused :
    ∃ reached after,
      Command.performAll underWay { machine := .create (.blank 6), host := () } = some reached ∧
      reached.machine.halted = false ∧
      Refused silentDevices (List.replicate 7 1) reached after := by
  have running : (Command.performAll underWay { machine := .create (.blank 6), host := () }).any
      (fun reached => reached.machine.halted = false) = true := by
    decide +kernel
  obtain ⟨reached, performed, known⟩ := (Option.any_eq_true _ _).mp running
  obtain ⟨after, refused⟩ := refused_load_clears (.ofNat 6) (.blank 6) rfl underWay () reached
    performed (List.replicate 7 1) (by decide) silentDevices
  exact ⟨reached, after, performed, of_decide_eq_true known, refused⟩

/-- The program has been there before and is gone afterwards, while the machine still counts as
loaded. -/
theorem refused_load_not_atomic :
    ∃ reached : Session Unit, ∃ fault after,
      Command.performAll underWay { machine := .create (.blank 6), host := () } = some reached ∧
      Machine.load (List.replicate 7 1) reached.machine = .error fault after ∧
      after ≠ reached.machine ∧
      reached.machine.memory.toList = [0x82, 0, 8, 0x47, 0, 0x01] ∧
      after.memory.toList = [0, 0, 0, 0, 0, 0] ∧ after.isLoaded = true := by
  have facts : (Command.performAll underWay { machine := .create (.blank 6), host := () }).any
      (fun reached => reached.machine.memory.toList = [0x82, 0, 8, 0x47, 0, 0x01] ∧
        reached.machine.isLoaded = true) = true := by
    decide +kernel
  obtain ⟨reached, performed, known⟩ := (Option.any_eq_true _ _).mp facts
  obtain ⟨cells, loaded⟩ := of_decide_eq_true known
  have size : reached.machine.memory.size = 6 := congrArg List.length cells
  have refused : Machine.load (List.replicate 7 1) reached.machine = .error _ _ :=
    Machine.load_of_longer (by rw [size]; decide) (by rw [size]; decide)
  refine ⟨reached, _, _, performed, refused, ?_, cells, ?_, loaded⟩
  · intro same
    have zeros := Machine.emptied_eq_iff.mp same 0x82
    rw [cells] at zeros
    exact absurd (zeros (by decide)) (by decide)
  · show (Memory.blank reached.machine.memory.size).toList = _
    rw [size]
    rfl

end EightBit
