/-
Conditional jumps follow the last comparison. The flags are an ordinary register, and every
instruction but a comparison leaves them alone unless they are its destination. So however far a run
has gone since a comparison, as long as nothing wrote to the flags in between they still tell how
the two values compared, and a conditional jump decides by that. Of the two conditional jumps one
goes and the other stays, whatever the flags are.
-/

import EightBit.Proofs.Atomicity
import EightBit.Proofs.Confinement

namespace EightBit

variable {Host : Type}

/-! ### What an instruction writes -/

namespace Opcode

/-- The registers that an instruction writes to, the stack pointer among them. -/
def destinations (storage : Storage) (address : Nat) : Opcode → List UInt8
  | .hlt | .prn | .jmp | .jeq | .jne => []
  | .push | .call | .ret => [7]
  | .pop => [7, storage.operand address 1]
  | .ldi | .add | .sub | .mul => [storage.operand address 1]
  | .cmp => [6]

/-- An instruction leaves all registers alone that are not among its destinations. -/
theorem value_effect {storage : Storage} {address : Nat} {opcode : Opcode} {index : UInt8}
    (other : index ∉ opcode.destinations storage address) :
    (opcode.effect storage address).registers.value index = storage.registers.value index := by
  cases opcode with
  | hlt | prn | jmp | jeq | jne => rfl
  | push | call | ret | cmp | ldi | add | sub | mul =>
    exact Registers.value_assign_of_ne _ _ fun same => other (List.mem_singleton.mpr same.symm)
  | pop =>
    have pointer : 7 ≠ index := fun same => other (same ▸ List.mem_cons_self)
    have named : storage.operand address 1 ≠ index :=
      fun same => other (List.mem_cons_of_mem _ (List.mem_singleton.mpr same.symm))
    exact (Registers.value_assign_of_ne _ _ named).trans
      (Registers.value_assign_of_ne _ _ pointer)

end Opcode

/-- The machine is going to execute an instruction that writes to the flags: a comparison, or one
that has them as its destination. -/
def Machine.SetsFlags (machine : Machine) : Prop :=
  ∃ opcode address, machine.AboutTo opcode address ∧
    6 ∈ opcode.destinations machine.toStorage address

/-- Whether it succeeds or fails, a step keeps the flags unless its instruction writes to them. -/
theorem flags_step (devices : Devices Host) {session : Session Host}
    (kept : ¬ session.machine.SetsFlags) :
    (stateLeft (step devices session)).machine.registers.flags =
      session.machine.registers.flags := by
  have outcome := stepped devices session
  generalize step devices session = result at outcome
  cases outcome with
  | idle | unfetched | unobserved | unchecked | unprinted => rfl
  | @completed address opcode _ _ running fetched =>
    exact Opcode.value_effect fun written => kept ⟨opcode, address, ⟨running, fetched⟩, written⟩

/-! ### Comparisons -/

/-- The flags tell how two values compare, and they tell nothing else. -/
structure TellsOrder (left right flags : UInt8) : Prop where
  equal : flags = 1 ↔ left = right
  greater : flags = 2 ↔ right < left
  less : flags = 4 ↔ left < right
  oneOf : flags = 1 ∨ flags = 2 ∨ flags = 4

theorem tellsOrder_comparison (left right : UInt8) :
    TellsOrder left right (Opcode.comparison left right) := by
  unfold Opcode.comparison
  by_cases same : left = right
  · rw [if_pos same, same]
    exact ⟨iff_of_true rfl rfl, iff_of_false (by decide) (UInt8.lt_irrefl right),
      iff_of_false (by decide) (UInt8.lt_irrefl right), Or.inl rfl⟩
  · rw [if_neg same]
    by_cases above : right < left
    · rw [if_pos above]
      exact ⟨iff_of_false (by decide) same, iff_of_true rfl above,
        iff_of_false (by decide) (UInt8.lt_asymm above), Or.inr (Or.inl rfl)⟩
    · have below : left < right := (UInt8.lt_or_lt_of_ne same).resolve_right above
      rw [if_neg above]
      exact ⟨iff_of_false (by decide) same, iff_of_false (by decide) above,
        iff_of_true rfl below, Or.inr (Or.inr rfl)⟩

theorem TellsOrder.bit {left right flags : UInt8} (tells : TellsOrder left right flags) :
    flags &&& 1 ≠ 0 ↔ left = right := by
  rw [← tells.equal]
  rcases tells.oneOf with rfl | rfl | rfl <;> decide

/-- After a comparison the flags tell how the values it found compare, whichever registers they were
in. -/
theorem tellsOrder_of_compared {devices : Devices Host} {before compared : Session Host}
    {flow : Flow} {address : Nat} (about : before.machine.AboutTo .cmp address)
    (done : step devices before = .ok flow compared) :
    TellsOrder (before.machine.named address 1) (before.machine.named address 2)
      compared.machine.registers.flags := by
  obtain ⟨machine, -⟩ := machine_of_step_ok about done
  have written : compared.machine.registers.flags =
      Opcode.comparison (before.machine.named address 1) (before.machine.named address 2) := by
    rw [machine]
    exact Registers.value_assign_self _ 6 _ (by decide)
  rw [written]
  exact tellsOrder_comparison _ _

/-! ### Runs -/

/-- One successful step, with whatever devices, that does not write to the flags. -/
def KeepsFlags (before after : Session Host) : Prop :=
  (∃ devices flow, step devices before = .ok flow after) ∧ ¬ before.machine.SetsFlags

theorem flags_of_run {first last : Session Host}
    (run : Relation.ReflTransGen KeepsFlags first last) :
    last.machine.registers.flags = first.machine.registers.flags := by
  induction run with
  | refl => rfl
  | tail _ stepped inductionHypothesis =>
    obtain ⟨⟨devices, flow, done⟩, kept⟩ := stepped
    have flags := flags_step devices kept
    rw [done] at flags
    exact flags.trans inductionHypothesis

/-- No flags are set, or the one of a comparison. -/
def Machine.FlagsClean (machine : Machine) : Prop :=
  machine.registers.flags = 0 ∨ machine.registers.flags = 1 ∨ machine.registers.flags = 2 ∨
    machine.registers.flags = 4

/-- Whatever is about to write to the flags is a comparison. -/
def Machine.OnlyCompares (machine : Machine) : Prop :=
  machine.SetsFlags → ∃ address, machine.AboutTo .cmp address

theorem flagsClean_step {before after : Session Host}
    (stepped : StepsFrom Machine.OnlyCompares before after) (clean : before.machine.FlagsClean) :
    after.machine.FlagsClean := by
  obtain ⟨compares, devices, rfl⟩ := stepped
  by_cases sets : before.machine.SetsFlags
  · obtain ⟨address, about⟩ := compares sets
    cases taken : step devices before with
    | ok flow after => exact Or.inr (tellsOrder_of_compared about taken).oneOf
    | error thrown after =>
      show after.machine.FlagsClean
      unfold Machine.FlagsClean
      rw [(storage_of_step_error taken).1]
      exact clean
  · unfold Machine.FlagsClean
    rw [flags_step devices sets]
    exact clean

/-- Right after a load no flags are set, and only comparisons set them from there on. -/
theorem flagsClean_of_run {program : List UInt8} {machine : Machine} {first last : Session Host}
    (accepted : Machine.load program machine = .ok () first.machine)
    (run : Relation.ReflTransGen (StepsFrom Machine.OnlyCompares) first last) :
    last.machine.FlagsClean := by
  induction run with
  | refl =>
    obtain ⟨-, loaded⟩ := Machine.eq_loaded_of_load accepted
    rw [loaded]
    exact Or.inl rfl
  | tail _ stepped inductionHypothesis => exact flagsClean_step stepped inductionHypothesis

/-! ### Conditional jumps -/

/-- Where a jump leads: to the value of its register, or past it. -/
def Machine.branchTo (machine : Machine) (place : Nat) (taken : Prop) [Decidable taken] : Number :=
  .ofNat (if taken then (machine.named place 1).toNat else place + 2)

theorem pc_of_jeq {devices : Devices Host} {last after : Session Host} {flow : Flow} {place : Nat}
    (about : last.machine.AboutTo .jeq place) (done : step devices last = .ok flow after) :
    after.machine.pc =
      last.machine.branchTo place (last.machine.registers.flags &&& 1 ≠ 0) := by
  obtain ⟨machine, -⟩ := machine_of_step_ok about done
  rw [machine]
  rfl

theorem pc_of_jne {devices : Devices Host} {last after : Session Host} {flow : Flow} {place : Nat}
    (about : last.machine.AboutTo .jne place) (done : step devices last = .ok flow after) :
    after.machine.pc =
      last.machine.branchTo place (last.machine.registers.flags &&& 1 = 0) := by
  obtain ⟨machine, -⟩ := machine_of_step_ok about done
  rw [machine]
  rfl

theorem Machine.branchTo_congr {machine : Machine} {place : Nat} {taken other : Prop}
    [Decidable taken] [Decidable other] (same : taken ↔ other) :
    machine.branchTo place taken = machine.branchTo place other := by
  unfold branchTo
  simp only [same]

/-- From a comparison on, through every run of successful steps that does not write to the flags,
they tell how the two values compared, and conditional jumps go by that. If only comparisons write
to the flags, they are clean all along after a load. In every state one and the same condition
decides both jumps, in opposite ways. -/
theorem jumps_follow_comparison :
    (∀ (devices : Devices Host) (before compared last : Session Host) (flow : Flow)
        (address : Nat),
      before.machine.AboutTo .cmp address → step devices before = .ok flow compared →
      Relation.ReflTransGen KeepsFlags compared last →
        TellsOrder (before.machine.named address 1) (before.machine.named address 2)
          last.machine.registers.flags ∧
        ∀ (later : Devices Host) (after : Session Host) (next : Flow) (place : Nat),
          step later last = .ok next after →
            (last.machine.AboutTo .jeq place → after.machine.pc = last.machine.branchTo place
              (before.machine.named address 1 = before.machine.named address 2)) ∧
            (last.machine.AboutTo .jne place → after.machine.pc = last.machine.branchTo place
              (before.machine.named address 1 ≠ before.machine.named address 2))) ∧
    (∀ (program : List UInt8) (machine : Machine) (first last : Session Host),
      Machine.load program machine = .ok () first.machine →
      Relation.ReflTransGen (StepsFrom Machine.OnlyCompares) first last →
        last.machine.FlagsClean) ∧
    ∀ registers : Registers, ∃ taken : Bool,
      ∀ (devices : Devices Host) (last after : Session Host) (flow : Flow) (place : Nat),
        last.machine.registers = registers → step devices last = .ok flow after →
          (last.machine.AboutTo .jeq place →
            after.machine.pc = last.machine.branchTo place (taken = true)) ∧
          (last.machine.AboutTo .jne place →
            after.machine.pc = last.machine.branchTo place (taken = false)) := by
  refine ⟨?_, fun program machine first last => flagsClean_of_run, fun registers => ?_⟩
  · intro devices before compared last flow address about done run
    have tells := tellsOrder_of_compared about done
    rw [← flags_of_run run] at tells
    refine ⟨tells, fun later after next place taken => ⟨fun jumping => ?_, fun jumping => ?_⟩⟩
    · exact (pc_of_jeq jumping taken).trans (Machine.branchTo_congr tells.bit)
    · refine (pc_of_jne jumping taken).trans (Machine.branchTo_congr ?_)
      rw [ne_eq, ← tells.bit, Decidable.not_not]
  · refine ⟨registers.flags &&& 1 ≠ 0, fun devices last after flow place same done => ?_⟩
    subst same
    refine ⟨fun jumping => ?_, fun jumping => ?_⟩
    · refine (pc_of_jeq jumping done).trans (Machine.branchTo_congr ?_)
      rw [decide_eq_true_eq]
    · refine (pc_of_jne jumping done).trans (Machine.branchTo_congr ?_)
      rw [decide_eq_false_iff_not, Decidable.not_not]

/-- A comparison of the first register with the flags themselves, a push of the flags, and a jump
if they were equal. -/
def selfCompared : Session Unit where
  machine :=
    { Machine.create ⟨Memory.overlay (Array.replicate 256 0) 0 [0xA7, 0, 6, 0x45, 6, 0x55, 1]⟩ with
      registers := ((Registers.initial.assign 0 4).assign 1 9).assign 6 4 }
  host := ()

/-- Both registers held four, so the jump is taken, although the comparison has overwritten one of
them. -/
theorem selfCompared_jumps :
    ((selfCompared.past 0 .cmp).past 3 .push).machine.registers.flags = 1 ∧
      ∃ after, step silentDevices ((selfCompared.past 0 .cmp).past 3 .push) = .ok .proceed after ∧
        after.machine.pc = .ofNat 9 := by
  have comparing : selfCompared.machine.AboutTo .cmp 0 := by decide +kernel
  have pushing : (selfCompared.past 0 .cmp).machine.AboutTo .push 3 := by decide +kernel
  have jumping : ((selfCompared.past 0 .cmp).past 3 .push).machine.AboutTo .jeq 5 := by
    decide +kernel
  have compared : step silentDevices selfCompared = .ok .proceed (selfCompared.past 0 .cmp) :=
    step_of_passed comparing rfl (by decide +kernel) rfl
  have pushed : step silentDevices (selfCompared.past 0 .cmp) =
      .ok .proceed ((selfCompared.past 0 .cmp).past 3 .push) :=
    step_of_passed pushing rfl (by decide +kernel) rfl
  have jumped : step silentDevices ((selfCompared.past 0 .cmp).past 3 .push) =
      .ok .proceed (((selfCompared.past 0 .cmp).past 3 .push).past 5 .jeq) :=
    step_of_passed jumping rfl (by decide +kernel) rfl
  have kept : ¬ (selfCompared.past 0 .cmp).machine.SetsFlags := by
    rintro ⟨opcode, address, about, written⟩
    have same := pushing.fetched.symm.trans about.fetched
    cases same
    revert written
    decide
  obtain ⟨tells, jumps⟩ := jumps_follow_comparison.1 silentDevices selfCompared _ _ .proceed 0
    comparing compared (.single ⟨⟨silentDevices, .proceed, pushed⟩, kept⟩)
  refine ⟨tells.equal.mpr (by decide +kernel), _, jumped, ?_⟩
  exact ((jumps silentDevices _ _ 5 jumped).1 jumping).trans (by decide +kernel)

end EightBit
