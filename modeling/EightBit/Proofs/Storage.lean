/-
What an access to storage does. Every access is a row of checks with a value behind them: the first
check that fails gives the fault, and when none fails the access yields its value. A computation on
a state goes through a row of checks in the same way, and has changed nothing when one of them
fails. Cells and registers are read and replaced here by total functions, so that the value can be
spoken of apart from the checks.
-/

import EightBit.Proofs.Integers
import EightBit.Stack

namespace EightBit

/-! ### Checks -/

/-- A condition under which an access fails, and the fault it then raises. -/
structure Check where
  fails : Bool
  fault : Fault

/-- The fault of the first check that fails. -/
def firstFault (checks : List Check) : Option Fault :=
  (checks.find? Check.fails).map Check.fault

theorem firstFault_cons (check : Check) (rest : List Check) :
    firstFault (check :: rest) = if check.fails then some check.fault else firstFault rest := by
  unfold firstFault
  rw [List.find?_cons]
  cases check.fails <;> rfl

/-- No check of a row fails exactly when the row has no first fault. -/
theorem firstFault_eq_none_iff (checks : List Check) :
    firstFault checks = none ↔ ∀ check ∈ checks, check.fails = false := by
  unfold firstFault
  rw [Option.map_eq_none_iff, List.find?_eq_none]
  simp only [Bool.not_eq_true]

/-- A value behind a row of checks. -/
def checked {α : Type} (checks : List Check) (value : α) : Except Fault α :=
  match firstFault checks with
  | some fault => .error fault
  | none => .ok value

theorem checked_cons {α : Type} (check : Check) (rest : List Check) (value : α) :
    checked (check :: rest) value =
      if check.fails then .error check.fault else checked rest value := by
  unfold checked
  rw [firstFault_cons]
  cases check.fails <;> rfl

theorem checked_nil {α : Type} (value : α) : checked [] value = .ok value := rfl

/-! ### Computations behind checks -/

/-- The state a computation leaves, whether it returned or failed. -/
def stateLeft {Error State Value : Type} : EStateM.Result Error State Value → State
  | .ok _ state => state
  | .error _ state => state

/-- What only finishes an answer leaves the state alone. -/
theorem stateLeft_bind_pure {Error State α β : Type} (action : EStateM Error State α)
    (finish : α → β) (state : State) :
    stateLeft ((action >>= fun value => pure (finish value)) state) = stateLeft (action state) := by
  show stateLeft (EStateM.bind action _ state) = _
  unfold EStateM.bind
  cases action state <;> rfl

section Guarded

variable {Error State α β : Type} {raise : Fault → Error}

/-- A result behind a row of checks. A check that fails leaves the state alone. -/
def guarded (raise : Fault → Error) (checks : List Check) (state : State)
    (result : EStateM.Result Error State α) : EStateM.Result Error State α :=
  match firstFault checks with
  | some fault => .error (raise fault) state
  | none => result

theorem guarded_cons (check : Check) (rest : List Check) (state : State)
    (result : EStateM.Result Error State α) :
    guarded raise (check :: rest) state result =
      if check.fails then .error (raise check.fault) state
      else guarded raise rest state result := by
  unfold guarded
  rw [firstFault_cons]
  cases check.fails <;> rfl

theorem guarded_append (first second : List Check) (state : State)
    (result : EStateM.Result Error State α) :
    guarded raise (first ++ second) state result =
      guarded raise first state (guarded raise second state result) := by
  induction first with
  | nil => rfl
  | cons check rest inductionHypothesis =>
    rw [List.cons_append, guarded_cons, guarded_cons, inductionHypothesis]

/-- Behind checks, the result only matters where they all pass. -/
theorem guarded_congr (checks : List Check) (state : State)
    {first second : EStateM.Result Error State α}
    (same : (∀ check ∈ checks, check.fails = false) → first = second) :
    guarded raise checks state first = guarded raise checks state second := by
  unfold guarded
  cases found : firstFault checks with
  | none => exact same ((firstFault_eq_none_iff checks).mp found)
  | some fault => rfl

theorem guarded_passed {check : Check} (state : State) (result : EStateM.Result Error State α)
    (passed : check.fails = false) : guarded raise [check] state result = result := by
  rw [guarded_cons, passed]
  rfl

/-- A row of checks that amounts to a single one. -/
theorem guarded_of_firstFault {checks : List Check} {check : Check} (state : State)
    (result : EStateM.Result Error State α) (same : firstFault checks = firstFault [check]) :
    guarded raise checks state result =
      if check.fails then .error (raise check.fault) state else result := by
  unfold guarded
  rw [same, firstFault_cons]
  cases check.fails <;> rfl

theorem guarded_eq_ok_iff {checks : List Check} {state after last : State} {value result : α} :
    guarded raise checks state (.ok value after) = .ok result last ↔
      firstFault checks = none ∧ value = result ∧ after = last := by
  unfold guarded
  cases firstFault checks <;> simp

/-- What follows an action behind checks is behind the same checks. -/
theorem bind_of_guarded {action : EStateM Error State α} {next : α → EStateM Error State β}
    {checks : List Check} {state after : State} {value : α}
    (first : action state = guarded raise checks state (.ok value after)) :
    (action >>= next) state = guarded raise checks state (next value after) := by
  show EStateM.bind action next state = _
  unfold EStateM.bind
  rw [first]
  unfold guarded
  cases firstFault checks <;> rfl

end Guarded

/-! ### Memory -/

namespace Memory

/-- The check that an address lies inside memory. -/
def outside (memory : Memory) (address : Nat) (access : Access) : Check where
  fails := memory.size ≤ address
  fault := .address (.ofNat address) access (.ofNat memory.size)

@[simp] theorem outside_fails (memory : Memory) (address : Nat) (access : Access) :
    (memory.outside address access).fails = decide (memory.size ≤ address) := rfl

/-- Memory with one cell replaced; outside there is nothing to replace. -/
def assign (memory : Memory) (address : Nat) (value : UInt8) : Memory :=
  ⟨memory.cells.setIfInBounds address value⟩

theorem size_assign (memory : Memory) (address : Nat) (value : UInt8) :
    (memory.assign address value).size = memory.size :=
  Array.size_setIfInBounds

theorem cellOrZero_eq_cell (memory : Memory) (index : Fin memory.size) :
    memory.cellOrZero index = memory.cell index := by
  unfold cellOrZero cell
  rw [Array.getElem?_eq_getElem index.isLt]
  rfl

theorem cellOrZero_assign_self (memory : Memory) {address : Nat} (value : UInt8)
    (inside : address < memory.size) :
    (memory.assign address value).cellOrZero address = value := by
  unfold cellOrZero assign
  rw [Array.getElem?_setIfInBounds_self_of_lt inside]
  rfl

theorem cellOrZero_assign_of_ne (memory : Memory) {address other : Nat} (value : UInt8)
    (different : address ≠ other) :
    (memory.assign address value).cellOrZero other = memory.cellOrZero other := by
  unfold cellOrZero assign
  rw [Array.getElem?_setIfInBounds_ne different]

theorem locate_ofNat (memory : Memory) (address : Nat) (access : Access) :
    memory.locate (.ofNat address) access =
      if inside : address < memory.size then .ok ⟨address, inside⟩
      else .error (memory.outside address access).fault := by
  unfold locate
  rw [Number.index?_ofNat]
  by_cases inside : address < memory.size
  · rw [dif_pos inside, dif_pos inside]
  · rw [dif_neg inside, dif_neg inside]
    rfl

/-- Whatever is done with a located cell is done behind the check of its address. -/
theorem locate_bind {α : Type} (memory : Memory) (address : Nat) (access : Access) (value : α)
    (next : Fin memory.size → Except Fault α)
    (continued : ∀ inside : address < memory.size, next ⟨address, inside⟩ = .ok value) :
    (memory.locate (.ofNat address) access >>= next) =
      checked [memory.outside address access] value := by
  rw [locate_ofNat, checked_cons, checked_nil]
  by_cases inside : address < memory.size
  · rw [dif_pos inside, if_neg (by simpa using inside)]
    exact continued inside
  · rw [dif_neg inside, if_pos (by simpa using inside)]
    rfl

theorem read_eq_checked (memory : Memory) (address : Nat) :
    memory.read (.ofNat address) =
      checked [memory.outside address .read] (memory.cellOrZero address) := by
  unfold read
  refine locate_bind memory address .read _ _ fun inside => ?_
  exact congrArg Except.ok (memory.cellOrZero_eq_cell ⟨address, inside⟩).symm

theorem write_eq_checked (memory : Memory) (address : Nat) (value : Number) :
    memory.write (.ofNat address) value =
      checked [memory.outside address .write] (memory.assign address value.toByte) := by
  unfold write
  refine locate_bind memory address .write _ _ fun inside => ?_
  unfold assign
  rw [Array.setIfInBounds, dif_pos inside]
  rfl

theorem write_of_neg (memory : Memory) {address : Int} (value : Number) (negative : address < 0) :
    memory.write (.ofInt address) value =
      .error (.address (.ofInt address) .write (.ofNat memory.size)) := by
  unfold write locate
  rw [Number.index?_of_neg memory.size negative]
  rfl

/-- Data no longer than memory can be placed at its start. -/
theorem load_zero {memory : Memory} {data : List UInt8} (fits : data.length ≤ memory.size)
    (small : data.length < 2 ^ 53) :
    memory.load data (.ofNat 0) = .ok ⟨overlay memory.cells 0 data⟩ := by
  have reach : (Number.ofNat 0).add (.ofNat data.length) = .ofNat data.length := by
    have sum := Number.add_ofInt 0 data.length (by omega)
    rwa [Int.zero_add] at sum
  have start : (Number.ofNat 0).truncate.toNat = 0 := rfl
  unfold load
  simp only [reach, start, Number.lt_ofNat, Nat.zero_add, Nat.lt_irrefl, Nat.not_lt.mpr fits,
    decide_false, Bool.or_self, if_false, Bool.false_eq_true]

/-- Data that was placed at the start of memory fits there. -/
theorem eq_overlay_of_load {memory placed : Memory} {data : List UInt8}
    (accepted : memory.load data (.ofNat 0) = .ok placed) :
    data.length ≤ memory.size ∧ placed = ⟨overlay memory.cells 0 data⟩ := by
  have start : (Number.ofNat 0).truncate.toNat = 0 := rfl
  unfold load at accepted
  simp only [start, Nat.zero_add] at accepted
  split at accepted
  · cases accepted
  · split at accepted
    · cases accepted
    · cases accepted
      exact ⟨Nat.not_lt.mp ‹_›, rfl⟩

theorem getElem?_overlay_of_lt (cells : Array UInt8) {start place : Nat} (data : List UInt8)
    (before : place < start) : (overlay cells start data)[place]? = cells[place]? := by
  induction data generalizing cells start with
  | nil => rfl
  | cons byte rest inductionHypothesis =>
    rw [overlay, inductionHypothesis _ (by omega), Array.getElem?_setIfInBounds_ne (by omega)]

/-- Placed data is found from its start on. -/
theorem getElem?_overlay (cells : Array UInt8) {start index : Nat} {data : List UInt8}
    {byte : UInt8} (found : data[index]? = some byte) (room : start + data.length ≤ cells.size) :
    (overlay cells start data)[start + index]? = some byte := by
  induction data generalizing cells start index with
  | nil => cases found
  | cons head rest inductionHypothesis =>
    rw [List.length_cons] at room
    rw [overlay]
    cases index with
    | zero =>
      cases found
      have kept := getElem?_overlay_of_lt (cells.setIfInBounds start byte) rest
        (Nat.lt_add_one start)
      exact kept.trans (Array.getElem?_setIfInBounds_self_of_lt (by omega))
    | succ index =>
      rw [show start + (index + 1) = start + 1 + index by omega]
      exact inductionHypothesis _ found (by rw [Array.size_setIfInBounds]; omega)

/-- Behind placed data everything is as it was. -/
theorem getElem?_overlay_of_ge (cells : Array UInt8) {start place : Nat} {data : List UInt8}
    (behind : start + data.length ≤ place) :
    (overlay cells start data)[place]? = cells[place]? := by
  induction data generalizing cells start with
  | nil => rfl
  | cons byte rest inductionHypothesis =>
    rw [List.length_cons] at behind
    rw [overlay, inductionHypothesis _ (by omega), Array.getElem?_setIfInBounds_ne (by omega)]

end Memory

/-! ### Registers -/

namespace Registers

/-- The check that an operand byte names a register. -/
def unnamed (index : UInt8) : Check where
  fails := 8 ≤ index
  fault := .register (.ofByte index)

@[simp] theorem unnamed_fails (index : UInt8) :
    (unnamed index).fails = decide (8 ≤ index) := rfl

/-- The value of a register, zero where there is none. -/
def value (registers : Registers) (index : UInt8) : UInt8 :=
  registers.values[index.toNat]?.getD 0

/-- Registers with one value replaced; beyond them there is nothing to replace. -/
def assign (registers : Registers) (index value : UInt8) : Registers :=
  ⟨registers.values.setIfInBounds index.toNat value⟩

theorem value_assign_self (registers : Registers) (index value : UInt8) (named : index < 8) :
    (registers.assign index value).value index = value := by
  unfold Registers.value assign
  rw [Vector.getElem?_setIfInBounds_self_of_lt (UInt8.lt_iff_toNat_lt.mp named)]
  rfl

theorem value_assign_of_ne (registers : Registers) {index other : UInt8} (value : UInt8)
    (different : index ≠ other) :
    (registers.assign index value).value other = registers.value other := by
  unfold Registers.value assign
  rw [Vector.getElem?_setIfInBounds_ne fun equal => different (UInt8.toNat_inj.mp equal)]

theorem assign_eq_set (registers : Registers) (index value : UInt8)
    (named : index.toNat < 8) :
    registers.assign index value = ⟨registers.values.set index.toNat value named⟩ := by
  refine congrArg Registers.mk (Vector.ext fun other bound => ?_)
  rw [Vector.getElem_setIfInBounds bound, Vector.getElem_set]

theorem setStackPointer_eq_assign (registers : Registers) (value : Number) :
    registers.setStackPointer value = registers.assign 7 value.toByte :=
  (registers.assign_eq_set 7 value.toByte (by decide)).symm

theorem setFlags_eq_assign (registers : Registers) (value : Number) :
    registers.setFlags value = registers.assign 6 value.toByte :=
  (registers.assign_eq_set 6 value.toByte (by decide)).symm

theorem locate_bind {α : Type} (index : UInt8) (value : α) (next : Fin 8 → Except Fault α)
    (continued : ∀ named : index.toNat < 8, next ⟨index.toNat, named⟩ = .ok value) :
    (locate (.ofByte index) >>= next) = checked [unnamed index] value := by
  unfold locate
  rw [Number.ofByte, Number.index?_ofNat, checked_cons, checked_nil]
  by_cases named : index.toNat < 8
  · rw [dif_pos named, if_neg (by simpa [UInt8.le_iff_toNat_le] using named)]
    exact continued named
  · rw [dif_neg named, if_pos (by simpa [UInt8.le_iff_toNat_le] using named)]
    rfl

theorem get_eq_checked (registers : Registers) (index : UInt8) :
    registers.get (.ofByte index) = checked [unnamed index] (registers.value index) := by
  unfold get
  refine locate_bind index _ _ fun named => ?_
  unfold Registers.value
  rw [Vector.getElem?_eq_getElem named]
  rfl

theorem set_eq_checked (registers : Registers) (index value : UInt8) :
    registers.set (.ofByte index) (.ofByte value) =
      checked [unnamed index] (registers.assign index value) := by
  unfold set
  refine locate_bind index _ _ fun named => ?_
  rw [assign_eq_set registers index value named, Number.toByte_ofByte]
  rfl

end Registers

/-! ### The stack -/

namespace Storage

def pushChecks (storage : Storage) : List Check :=
  let pointer := storage.registers.stackPointer
  [⟨pointer = 0, .address (.ofInt (-1)) .write (.ofNat storage.memory.size)⟩,
    storage.memory.outside (pointer.toNat - 1) .write]

/-- Storage with a value laid below the stack pointer and the pointer moved to it. -/
def pushed (storage : Storage) (value : UInt8) : Storage where
  memory := storage.memory.assign (storage.registers.stackPointer.toNat - 1) value
  registers := storage.registers.assign 7 (storage.registers.stackPointer - 1)

theorem stackPointer_pushed (storage : Storage) (value : UInt8) :
    (storage.pushed value).registers.stackPointer = storage.registers.stackPointer - 1 :=
  Registers.value_assign_self _ 7 _ (by decide)

/-- Above address zero the pointer moves down by one and is not cut off. -/
theorem toNat_stackPointer_pushed {storage : Storage} (value : UInt8)
    (above : storage.registers.stackPointer.toNat ≠ 0) :
    (storage.pushed value).registers.stackPointer.toNat + 1 =
      storage.registers.stackPointer.toNat := by
  have bound := storage.registers.stackPointer.toNat_lt
  rw [stackPointer_pushed, UInt8.toNat_sub]
  simp only [UInt8.reduceToNat]
  omega

theorem ofExcept_checked {α : Type} (checks : List Check) (value : α) (storage : Storage) :
    (MonadExcept.ofExcept (checked checks value) : EStateM Fault Storage α) storage =
      guarded id checks storage (.ok value storage) := by
  unfold checked guarded
  cases firstFault checks <;> rfl

theorem push_apply (value : Number) (storage : Storage) :
    push value storage =
      guarded id storage.pushChecks storage (.ok () (storage.pushed value.toByte)) := by
  obtain ⟨memory, registers⟩ := storage
  show (MonadExcept.ofExcept (memory.write (.ofInt (registers.stackPointer.toNat - 1)) value) >>=
    _ : EStateM Fault Storage Unit) _ = _
  rw [pushChecks, guarded_cons]
  by_cases bottom : registers.stackPointer = 0
  · rw [if_pos (decide_eq_true bottom)]
    simp only [bottom]
    rw [show ((0 : UInt8).toNat : Int) - 1 = -1 from rfl,
      Memory.write_of_neg memory value (by decide)]
    rfl
  · have positive : 0 < registers.stackPointer.toNat := by
      rcases Nat.eq_zero_or_pos registers.stackPointer.toNat with zero | positive
      · exact absurd (UInt8.toNat_inj.mp zero) bottom
      · exact positive
    have target : Number.ofInt ((registers.stackPointer.toNat : Int) - 1) =
        .ofNat (registers.stackPointer.toNat - 1) :=
      congrArg Number.ofInt (by omega)
    have moved : (Number.ofNat (registers.stackPointer.toNat - 1)).toByte =
        registers.stackPointer - 1 := by
      have bound := registers.stackPointer.toNat_lt
      rw [Number.toByte_ofNat]
      apply UInt8.toNat_inj.mp
      rw [UInt8.toNat_sub, UInt8.toNat_ofNat']
      simp only [UInt8.reduceToNat]
      omega
    rw [if_neg (by simpa using bottom)]
    rw [target, Memory.write_eq_checked, bind_of_guarded (ofExcept_checked _ _ _)]
    refine congrArg (guarded id _ _) ?_
    show EStateM.Result.ok _ (Storage.mk _ (registers.setStackPointer _)) = _
    rw [Registers.setStackPointer_eq_assign, moved]
    rfl

def popChecks (storage : Storage) : List Check :=
  let pointer := storage.registers.stackPointer
  [storage.memory.outside pointer.toNat .read, storage.memory.outside (pointer.toNat + 1) .stack]

/-- The value under the stack pointer. -/
def top (storage : Storage) : UInt8 :=
  storage.memory.cellOrZero storage.registers.stackPointer.toNat

/-- Storage with the stack pointer moved up. -/
def popped (storage : Storage) : Storage :=
  { storage with registers := storage.registers.assign 7 (storage.registers.stackPointer + 1) }

theorem stackPointer_popped (storage : Storage) :
    storage.popped.registers.stackPointer = storage.registers.stackPointer + 1 :=
  Registers.value_assign_self _ 7 _ (by decide)

/-- Below address 255 the pointer moves up by one and is not cut off. -/
theorem toNat_stackPointer_popped {storage : Storage}
    (below : storage.registers.stackPointer.toNat < 255) :
    storage.popped.registers.stackPointer.toNat = storage.registers.stackPointer.toNat + 1 := by
  rw [stackPointer_popped, UInt8.toNat_add]
  simp only [UInt8.reduceToNat]
  omega

/-- Whatever a computation does with a located cell is behind the check of its address. -/
theorem ofExcept_locate_bind {α : Type} (memory : Memory) (address : Nat) (access : Access)
    (storage : Storage) {result : EStateM.Result Fault Storage α}
    {next : Fin memory.size → EStateM Fault Storage α}
    (continued : ∀ inside : address < memory.size, next ⟨address, inside⟩ storage = result) :
    (MonadExcept.ofExcept (memory.locate (.ofNat address) access) >>= next) storage =
      guarded id [memory.outside address access] storage result := by
  rw [Memory.locate_ofNat, guarded_cons]
  by_cases inside : address < memory.size
  · rw [dif_pos inside, if_neg (by simpa using inside)]
    exact continued inside
  · rw [dif_neg inside, if_pos (by simpa using inside)]
    rfl

theorem pop_apply (storage : Storage) :
    pop storage = guarded id storage.popChecks storage (.ok storage.top storage.popped) := by
  obtain ⟨memory, registers⟩ := storage
  have moved : (Number.ofNat (registers.stackPointer.toNat + 1)).toByte =
      registers.stackPointer + 1 := by
    rw [Number.toByte_ofNat]
    apply UInt8.toNat_inj.mp
    rw [UInt8.toNat_add, UInt8.toNat_ofNat']
    simp only [UInt8.reduceToNat]
  show (MonadExcept.ofExcept (memory.read (.ofNat registers.stackPointer.toNat)) >>= _ :
    EStateM Fault Storage UInt8) _ = _
  rw [Memory.read_eq_checked, bind_of_guarded (ofExcept_checked _ _ _)]
  refine Eq.trans ?_ (guarded_append [_] [_] _ _).symm
  refine congrArg (guarded id _ _) (ofExcept_locate_bind memory _ .stack _ fun _ => ?_)
  show EStateM.Result.ok _ (Storage.mk memory (registers.setStackPointer _)) = _
  rw [Registers.setStackPointer_eq_assign, moved]
  rfl

end Storage

end EightBit
