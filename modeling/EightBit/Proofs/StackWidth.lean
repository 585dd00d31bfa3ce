/-
How large memory may be for the stack to be safe. The stack pointer is a byte, and so is a return
address on the stack, but what guards them is the size of memory: a pop looks whether there is a
cell above the pointer, and a call whether there is one at its return address. Up to 256 cells, a
byte can hold the address of every cell and nothing is ever cut off. With more there is a cell at
address 256, which passes both guards and fits into no byte. A push moves down, to an address below
one that a byte did hold, and is exact over every memory.
-/

import EightBit.Proofs.SavedValues

namespace EightBit

/-! ### What it means to be exact -/

/-- Over memory of a size, every pop that succeeds moves the stack pointer up by one. -/
def PopsExactly (size : Nat) : Prop :=
  ∀ (machine : Machine) (value : UInt8) (after : Storage), machine.memory.size = size →
    Storage.pop machine.toStorage = .ok value after →
      after.registers.stackPointer.toNat = machine.pointer + 1

/-- Over memory of a size, every push that succeeds moves the stack pointer down by one. -/
def PushesExactly (size : Nat) : Prop :=
  ∀ (machine : Machine) (value : Number) (after : Storage), machine.memory.size = size →
    Storage.push value machine.toStorage = .ok () after →
      (after.registers.stackPointer.toNat : Int) = machine.pointer - 1

/-- Over memory of a size, every call that succeeds lays the address behind it on the stack, as it
is. -/
def CallsExactly (size : Nat) : Prop :=
  ∀ (Host : Type) (devices : Devices Host) (before after : Session Host) (flow : Flow)
    (address : Nat), before.machine.memory.size = size →
    before.machine.AboutTo .call address → step devices before = .ok flow after →
      ∃ byte, after.machine.toStorage = before.machine.toStorage.pushed byte ∧
        byte.toNat = address + 2

/-! ### Pops -/

/-- A cell above the pointer is a cell that a byte can address, if there are no more than 256. -/
theorem popsExactly_of_le {size : Nat} (small : size ≤ 256) : PopsExactly size := by
  intro machine value after sized done
  rw [Storage.pop_apply, guarded_eq_ok_iff] at done
  obtain ⟨passed, -, rfl⟩ := done
  have above : (machine.memory.outside (machine.pointer + 1) .stack).fails = false :=
    (firstFault_eq_none_iff _).mp passed _ (by simp [Storage.popChecks])
  rw [Memory.outside_fails, decide_eq_false_iff_not] at above
  have below : machine.pointer < 255 := by omega
  exact Storage.toNat_stackPointer_popped below

/-- With a cell at address 256, a pop from address 255 goes there and ends up at address zero. -/
theorem not_popsExactly_of_lt {size : Nat} (large : 256 < size) : ¬ PopsExactly size := by
  intro pops
  have inside (address : Nat) (access : Access) (below : address < 257) :
      ((Memory.blank size).outside address access).fails = false := by
    rw [Memory.outside_fails, Memory.size_blank, decide_eq_false_iff_not]
    omega
  have passed : firstFault (Machine.create (.blank size)).toStorage.popChecks = none := by
    refine (firstFault_eq_none_iff _).mpr ?_
    show ∀ check ∈ [(Memory.blank size).outside 255 .read, (Memory.blank size).outside 256 .stack],
      check.fails = false
    simp only [List.forall_mem_cons, inside 255 .read (by decide), inside 256 .stack (by decide),
      List.not_mem_nil, false_imp_iff, implies_true, and_self]
  have done : Storage.pop (Machine.create (.blank size)).toStorage = _ :=
    (Storage.pop_apply _).trans (guarded_eq_ok_iff.mpr ⟨passed, rfl, rfl⟩)
  have moved := pops (Machine.create (.blank size)) _ _ (Memory.size_blank size) done
  rw [Storage.stackPointer_popped] at moved
  have wrapped : (Registers.initial.stackPointer + 1).toNat ≠
      Registers.initial.stackPointer.toNat + 1 := by decide
  exact wrapped moved

theorem popsExactly_iff (size : Nat) : PopsExactly size ↔ size ≤ 256 :=
  ⟨fun pops => Nat.not_lt.mp fun large => not_popsExactly_of_lt large pops, popsExactly_of_le⟩

/-! ### Pushes -/

theorem pushesExactly (size : Nat) : PushesExactly size := by
  intro machine value after _ done
  rw [Storage.push_apply, guarded_eq_ok_iff] at done
  obtain ⟨passed, -, rfl⟩ := done
  have above : machine.pointer ≠ 0 :=
    Storage.stackPointer_ne_zero_of_pushChecks ((firstFault_eq_none_iff _).mp passed)
  have moved : (machine.toStorage.pushed value.toByte).registers.stackPointer.toNat + 1 =
      machine.pointer := Storage.toNat_stackPointer_pushed value.toByte above
  omega

/-! ### Calls -/

theorem callsExactly_of_le {size : Nat} (small : size ≤ 256) : CallsExactly size := by
  intro Host devices before after flow address sized about done
  obtain ⟨machine, passed⟩ := machine_of_step_ok about done
  -- the return address has been found inside memory, so a byte can hold it
  have inside : (before.machine.memory.outside (address + 2) .stack).fails = false :=
    (firstFault_eq_none_iff _).mp passed _ (by simp [Opcode.checks])
  rw [Memory.outside_fails, decide_eq_false_iff_not] at inside
  refine ⟨UInt8.ofNat (address + 2), by rw [machine]; rfl, ?_⟩
  rw [UInt8.toNat_ofNat']
  omega

/-- A call at address 254 of an otherwise empty memory, to address zero. -/
def callBefore (size : Nat) : Session Unit where
  machine :=
    { Machine.create ((Memory.blank size).assign 254 0x50) with
      pc := .ofNat 254 }
  host := ()

/-- With a cell at address 256, a call in front of it succeeds, and no byte holds the address it is
to come back to. -/
theorem not_callsExactly_of_lt {size : Nat} (large : 256 < size) : ¬ CallsExactly size := by
  intro calls
  have sized : (callBefore size).machine.memory.size = size :=
    (Memory.size_assign _ _ _).trans (Memory.size_blank size)
  have here : (callBefore size).machine.memory.cellOrZero 254 = 0x50 :=
    Memory.cellOrZero_assign_self _ _ (by rw [Memory.size_blank]; omega)
  have behind : (callBefore size).machine.operand 254 1 = 0 := by
    have empty : (Memory.blank size).cellOrZero 255 = 0 := by
      unfold Memory.cellOrZero Memory.blank
      rw [Array.getElem?_replicate, if_pos (by omega)]
      rfl
    exact (Memory.cellOrZero_assign_of_ne _ _ (by decide)).trans empty
  have about : (callBefore size).machine.AboutTo .call 254 := by
    rw [Machine.aboutTo_iff, sized, here]
    exact ⟨rfl, rfl, by omega, rfl⟩
  have inside (address : Nat) (access : Access) (below : address < 257) :
      ((callBefore size).machine.memory.outside address access).fails = false := by
    rw [Memory.outside_fails, sized, decide_eq_false_iff_not]
    omega
  have passed : ∀ check ∈ Opcode.call.checks (callBefore size).machine.toStorage 254,
      check.fails = false := by
    show ∀ check ∈ [(callBefore size).machine.memory.outside 255 .read,
      Registers.unnamed ((callBefore size).machine.operand 254 1),
      (callBefore size).machine.memory.outside 256 .stack,
      ⟨Registers.initial.stackPointer = 0, _⟩,
      (callBefore size).machine.memory.outside 254 .write], check.fails = false
    simp only [List.forall_mem_cons, inside _ _ (by decide : 255 < 257), behind]
    exact ⟨trivial, rfl, inside 256 .stack (by decide), rfl, inside 254 .write (by decide),
      by simp⟩
  have done : step silentDevices (callBefore size) = .ok .proceed _ :=
    step_of_passed about rfl passed rfl
  obtain ⟨byte, -, value⟩ := calls Unit silentDevices _ _ _ 254 sized about done
  have bound := byte.toNat_lt
  omega

theorem callsExactly_iff (size : Nat) : CallsExactly size ↔ size ≤ 256 :=
  ⟨fun calls => Nat.not_lt.mp fun large => not_callsExactly_of_lt large calls, callsExactly_of_le⟩

/-- Stack pointer and return addresses are exact in every state of every machine exactly if memory
has at most 256 cells. -/
theorem stack_exact_iff (size : Nat) :
    (PopsExactly size ∧ PushesExactly size ∧ CallsExactly size) ↔ size ≤ 256 := by
  rw [popsExactly_iff, callsExactly_iff]
  exact ⟨fun exact => exact.1, fun small => ⟨small, pushesExactly size, small⟩⟩

end EightBit
