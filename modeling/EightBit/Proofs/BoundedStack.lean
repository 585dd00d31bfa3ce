/-
The stack as a bounded list. Over the standard memory the stack is the row of cells from the pointer
up to address 254, and that list of bytes is all a caller can see of it: a push lays a byte in front
while there are fewer than 255, a pop takes the first byte off while there is one, and a call that
fails leaves everything as it was. So a sequence of calls gives the answers of a plain list,
wherever the pointer starts, and what was pushed comes back in reverse order.
-/

import EightBit.Proofs.InstructionSet

namespace EightBit

/-- The fault of a push onto a stack that has no room. -/
def Fault.stackFull : Fault :=
  .address (.ofInt (-1)) .write (.ofNat 256)

/-- The fault of a pop from a stack that has no values. -/
def Fault.stackEmpty : Fault :=
  .address (.ofNat 256) .stack (.ofNat 256)

/-! ### The list the stack stands for -/

namespace Storage

variable {storage : Storage}

/-- The values on the stack, the one pushed last in front. The cell at address 255 is never one. -/
def stacked (storage : Storage) : List UInt8 :=
  let pointer := storage.registers.stackPointer.toNat
  (List.range' pointer (255 - pointer)).map storage.memory.cellOrZero

theorem length_stacked (storage : Storage) :
    storage.stacked.length = 255 - storage.registers.stackPointer.toNat := by
  unfold stacked
  rw [List.length_map, List.length_range']

theorem depth_eq_length_stacked (standard : storage.memory.size = 256) :
    storage.depth = storage.stacked.length := by
  have bound := storage.registers.stackPointer.toNat_lt
  unfold depth
  rw [standard, length_stacked]
  omega

/-- The cell of the new value joins the list, and the cells behind it are not written. -/
theorem stacked_pushed (standard : storage.memory.size = 256) (value : UInt8)
    (above : storage.registers.stackPointer.toNat ≠ 0) :
    (storage.pushed value).stacked = value :: storage.stacked := by
  have bound := storage.registers.stackPointer.toNat_lt
  have moved := toNat_stackPointer_pushed value above
  have place : (storage.pushed value).registers.stackPointer.toNat =
      storage.registers.stackPointer.toNat - 1 := by omega
  unfold stacked
  simp only [place]
  rw [show 255 - (storage.registers.stackPointer.toNat - 1) =
      (255 - storage.registers.stackPointer.toNat) + 1 by omega, List.range'_succ, List.map_cons,
    show storage.registers.stackPointer.toNat - 1 + 1 = storage.registers.stackPointer.toNat by
      omega]
  congr 1
  · exact Memory.cellOrZero_assign_self _ value (by omega)
  · refine List.map_congr_left fun address behind => ?_
    have later := (List.mem_range'_1.mp behind).1
    exact Memory.cellOrZero_assign_of_ne _ value (by omega)

theorem stacked_eq_cons (below : storage.registers.stackPointer.toNat < 255) :
    storage.stacked = storage.top :: storage.popped.stacked := by
  unfold stacked
  simp only [toNat_stackPointer_popped below]
  rw [show 255 - storage.registers.stackPointer.toNat =
      255 - (storage.registers.stackPointer.toNat + 1) + 1 by omega, List.range'_succ,
    List.map_cons]
  rfl

theorem stacked_eq_nil (top : storage.registers.stackPointer.toNat = 255) :
    storage.stacked = [] := by
  rw [← List.length_eq_zero_iff, length_stacked, top]

/-! ### One call -/

theorem push_standard (standard : storage.memory.size = 256) (value : Number) :
    push value storage =
      if storage.registers.stackPointer.toNat = 0 then .error Fault.stackFull storage
      else .ok () (storage.pushed value.toByte) := by
  have fails : storage.stackFull.fails = true ↔ storage.registers.stackPointer.toNat = 0 := by
    show decide (storage.registers.stackPointer = 0) = true ↔ _
    rw [decide_eq_true_eq, ← UInt8.toNat_inj]
    rfl
  rw [push_apply, guarded_of_firstFault _ _ (firstFault_pushChecks standard)]
  simp only [fails]
  rfl

theorem pop_standard (standard : storage.memory.size = 256) :
    pop storage =
      if storage.registers.stackPointer.toNat = 255 then .error Fault.stackEmpty storage
      else .ok storage.top storage.popped := by
  have fails : storage.stackEmpty.fails = true ↔ storage.registers.stackPointer.toNat = 255 := by
    show decide (storage.registers.stackPointer = 255) = true ↔ _
    rw [decide_eq_true_eq, ← UInt8.toNat_inj]
    rfl
  rw [pop_apply, guarded_of_firstFault _ _ (firstFault_popChecks standard)]
  simp only [fails]
  rfl

/-- What a push does to the list, and that it does nothing else. -/
structure Pushes (storage : Storage) (value : Number) : Prop where
  succeeds_iff : (∃ after, push value storage = .ok () after) ↔
    0 < storage.registers.stackPointer.toNat
  laid : ∀ after, push value storage = .ok () after →
    after.stacked = value.toByte :: storage.stacked
  size : ∀ after, push value storage = .ok () after → after.memory.size = storage.memory.size
  cells : ∀ after, push value storage = .ok () after →
    ∀ address, address + 1 ≠ storage.registers.stackPointer.toNat →
      after.memory.cellOrZero address = storage.memory.cellOrZero address
  registers : ∀ after, push value storage = .ok () after →
    ∀ index, index ≠ 7 → after.registers.value index = storage.registers.value index
  failed : ∀ fault after, push value storage = .error fault after →
    fault = .stackFull ∧ after = storage

/-- What a pop does to the list, and that it does nothing else. -/
structure Pops (storage : Storage) : Prop where
  succeeds_iff : (∃ value after, pop storage = .ok value after) ↔ storage.stacked ≠ []
  taken : ∀ value after, pop storage = .ok value after →
    storage.stacked = value :: after.stacked
  memory : ∀ value after, pop storage = .ok value after → after.memory = storage.memory
  registers : ∀ value after, pop storage = .ok value after →
    ∀ index, index ≠ 7 → after.registers.value index = storage.registers.value index
  failed : ∀ fault after, pop storage = .error fault after →
    fault = .stackEmpty ∧ after = storage

theorem pushes (standard : storage.memory.size = 256) (value : Number) :
    storage.Pushes value := by
  have pushing := push_standard standard value
  by_cases bottom : storage.registers.stackPointer.toNat = 0
  · rw [if_pos bottom] at pushing
    have never (after : Storage) : push value storage ≠ .ok () after := by
      rw [pushing]
      exact nofun
    refine ⟨⟨fun ⟨after, done⟩ => absurd done (never after), fun above => ?_⟩,
      fun after done => absurd done (never after), fun after done => absurd done (never after),
      fun after done => absurd done (never after), fun after done => absurd done (never after),
      fun fault after failed => ?_⟩
    · exact absurd bottom (Nat.ne_of_gt above)
    · rw [pushing] at failed
      cases failed
      exact ⟨rfl, rfl⟩
  · rw [if_neg bottom] at pushing
    have unique (after : Storage) (done : push value storage = .ok () after) :
        after = storage.pushed value.toByte := by
      rw [pushing] at done
      cases done
      rfl
    refine ⟨⟨fun _ => Nat.pos_of_ne_zero bottom, fun _ => ⟨_, pushing⟩⟩, ?_, ?_, ?_, ?_, ?_⟩
    · intro after done
      rw [unique after done]
      exact stacked_pushed standard value.toByte bottom
    · intro after done
      rw [unique after done]
      exact Memory.size_assign _ _ _
    · intro after done address other
      rw [unique after done]
      exact Memory.cellOrZero_assign_of_ne _ _ (by omega)
    · intro after done index other
      rw [unique after done]
      exact Registers.value_assign_of_ne _ _ other.symm
    · intro fault after failed
      rw [pushing] at failed
      cases failed

theorem pops (standard : storage.memory.size = 256) : storage.Pops := by
  have popping := pop_standard standard
  have bound := storage.registers.stackPointer.toNat_lt
  by_cases top : storage.registers.stackPointer.toNat = 255
  · rw [if_pos top] at popping
    have never (value : UInt8) (after : Storage) : pop storage ≠ .ok value after := by
      rw [popping]
      exact nofun
    refine ⟨⟨fun ⟨value, after, done⟩ => absurd done (never value after), fun filled => ?_⟩,
      fun value after done => absurd done (never value after),
      fun value after done => absurd done (never value after),
      fun value after done => absurd done (never value after), fun fault after failed => ?_⟩
    · exact absurd (stacked_eq_nil top) filled
    · rw [popping] at failed
      cases failed
      exact ⟨rfl, rfl⟩
  · rw [if_neg top] at popping
    have view : storage.stacked = storage.top :: storage.popped.stacked :=
      stacked_eq_cons (by omega)
    refine ⟨⟨fun _ => ?_, fun _ => ⟨_, _, popping⟩⟩, ?_, ?_, ?_, ?_⟩
    · rw [view]
      exact List.cons_ne_nil _ _
    · intro value after done
      rw [popping] at done
      cases done
      exact view
    · intro value after done
      rw [popping] at done
      cases done
      rfl
    · intro value after done index other
      rw [popping] at done
      cases done
      exact Registers.value_assign_of_ne _ _ other.symm
    · intro fault after failed
      rw [popping] at failed
      cases failed

end Storage

/-! ### Calls in turn -/

/-- A call on the stack. -/
inductive StackCall where
  | push (value : Number)
  | pop

/-- What a caller is told: nothing after a push, the value after a pop, or the fault. -/
abbrev StackAnswer : Type :=
  Except Fault (Option UInt8)

namespace StackCall

/-- A call on storage: what the caller is told, and the storage the call leaves. -/
def perform (call : StackCall) (storage : Storage) : StackAnswer × Storage :=
  match call with
  | .push value =>
    match Storage.push value storage with
    | .ok _ after => (.ok none, after)
    | .error fault after => (.error fault, after)
  | .pop =>
    match Storage.pop storage with
    | .ok value after => (.ok (some value), after)
    | .error fault after => (.error fault, after)

/-- The same call on a plain list of at most 255 bytes. -/
def onList (call : StackCall) (values : List UInt8) : StackAnswer × List UInt8 :=
  match call, values with
  | .push value, values =>
    if values.length < 255 then (.ok none, value.toByte :: values)
    else (.error Fault.stackFull, values)
  | .pop, [] => (.error Fault.stackEmpty, [])
  | .pop, value :: rest => (.ok (some value), rest)

/-- Calls made one after the other: all answers, and the state they lead to. -/
def inTurn {State : Type} (act : StackCall → State → StackAnswer × State) :
    List StackCall → State → List StackAnswer × State
  | [], state => ([], state)
  | call :: rest, state =>
    let later := inTurn act rest (act call state).2
    ((act call state).1 :: later.1, later.2)

theorem inTurn_append {State : Type} (act : StackCall → State → StackAnswer × State)
    (first second : List StackCall) (state : State) :
    inTurn act (first ++ second) state =
      ((inTurn act first state).1 ++ (inTurn act second (inTurn act first state).2).1,
        (inTurn act second (inTurn act first state).2).2) := by
  induction first generalizing state with
  | nil => rfl
  | cons call rest inductionHypothesis =>
    rw [List.cons_append, inTurn, inductionHypothesis]
    rfl

/-- What stays as it was through every call. -/
structure Kept (before after : Storage) : Prop where
  size : after.memory.size = before.memory.size
  registers : ∀ index, index ≠ 7 → after.registers.value index = before.registers.value index

theorem Kept.trans {first second third : Storage} (one : Kept first second)
    (two : Kept second third) : Kept first third :=
  ⟨two.size.trans one.size,
    fun index other => (two.registers index other).trans (one.registers index other)⟩

theorem kept_perform {storage : Storage} (standard : storage.memory.size = 256)
    (call : StackCall) : Kept storage (call.perform storage).2 := by
  cases call with
  | push value =>
    have pushing := Storage.pushes standard value
    cases done : Storage.push value storage with
    | ok answer after =>
      simp only [perform, done]
      exact ⟨pushing.size after done, pushing.registers after done⟩
    | error fault after =>
      simp only [perform, done]
      rw [(pushing.failed fault after done).2]
      exact ⟨rfl, fun _ _ => rfl⟩
  | pop =>
    have popping := Storage.pops standard
    cases done : Storage.pop storage with
    | ok value after =>
      simp only [perform, done]
      exact ⟨congrArg Memory.size (popping.memory _ _ done), popping.registers _ _ done⟩
    | error fault after =>
      simp only [perform, done]
      rw [(popping.failed fault after done).2]
      exact ⟨rfl, fun _ _ => rfl⟩

theorem onList_push_of_lt (value : Number) {values : List UInt8} (room : values.length < 255) :
    (push value).onList values = (.ok none, value.toByte :: values) :=
  if_pos room

theorem onList_push_of_not_lt (value : Number) {values : List UInt8}
    (noRoom : ¬ values.length < 255) :
    (push value).onList values = (.error Fault.stackFull, values) :=
  if_neg noRoom

/-- One call on storage is the same call on its list. -/
theorem perform_refines {storage : Storage} (standard : storage.memory.size = 256)
    (call : StackCall) :
    ((call.perform storage).1, (call.perform storage).2.stacked) =
      call.onList storage.stacked := by
  have bound := storage.registers.stackPointer.toNat_lt
  have length := storage.length_stacked
  cases call with
  | push value =>
    have pushing := Storage.push_standard standard value
    by_cases bottom : storage.registers.stackPointer.toNat = 0
    · rw [if_pos bottom] at pushing
      rw [onList_push_of_not_lt value (by omega)]
      simp only [perform, pushing]
    · rw [if_neg bottom] at pushing
      rw [onList_push_of_lt value (by omega)]
      simp only [perform, pushing, Storage.stacked_pushed standard value.toByte bottom]
  | pop =>
    have popping := Storage.pop_standard standard
    by_cases top : storage.registers.stackPointer.toNat = 255
    · rw [if_pos top] at popping
      simp only [perform, popping, Storage.stacked_eq_nil top, onList]
    · rw [if_neg top] at popping
      have view : storage.stacked = storage.top :: storage.popped.stacked :=
        Storage.stacked_eq_cons (by omega)
      rw [view]
      simp only [perform, popping, onList]

/-- So are calls in turn, and they leave alone what one call leaves alone. -/
theorem inTurn_perform_refines {storage : Storage} (standard : storage.memory.size = 256)
    (calls : List StackCall) :
    Kept storage (inTurn perform calls storage).2 ∧
      ((inTurn perform calls storage).1, (inTurn perform calls storage).2.stacked) =
        inTurn onList calls storage.stacked := by
  induction calls generalizing storage with
  | nil => exact ⟨⟨rfl, fun _ _ => rfl⟩, rfl⟩
  | cons call rest inductionHypothesis =>
    have kept := kept_perform standard call
    have one := perform_refines standard call
    obtain ⟨later, others⟩ := inductionHypothesis (kept.size.trans standard)
    refine ⟨kept.trans later, ?_⟩
    rw [inTurn, inTurn, ← one, ← others]

/-! ### Last in, first out -/

/-- Pushes on a list are laid in front of it until it has 255 values, and fail from there on. -/
theorem inTurn_onList_push (values : List Number) {held : List UInt8} {room : Nat}
    (bounded : held.length + room = 255) :
    inTurn onList (values.map push) held =
      (List.replicate (min values.length room) (.ok none) ++
          List.replicate (values.length - room) (.error Fault.stackFull),
        (values.take room).reverse.map Number.toByte ++ held) := by
  induction values generalizing held room with
  | nil => simp [inTurn]
  | cons value rest inductionHypothesis =>
    cases room with
    | zero =>
      rw [List.map_cons, inTurn, onList_push_of_not_lt value (by omega),
        inductionHypothesis bounded]
      simp [List.replicate_succ]
    | succ room =>
      have smaller : (value.toByte :: held).length + room = 255 := by
        rw [List.length_cons]
        omega
      rw [List.map_cons, inTurn, onList_push_of_lt value (by omega), inductionHypothesis smaller]
      simp [List.replicate_succ, Nat.succ_min_succ]

/-- As many pops as there are values in front of a list give these values, in order. -/
theorem inTurn_onList_pop (front held : List UInt8) :
    inTurn onList (List.replicate front.length pop) (front ++ held) =
      (front.map fun value => .ok (some value), held) := by
  induction front with
  | nil => rfl
  | cons value rest inductionHypothesis =>
    rw [List.length_cons, List.replicate_succ, inTurn, List.cons_append]
    show (_ :: (inTurn onList _ (rest ++ held)).1, (inTurn onList _ (rest ++ held)).2) = _
    rw [inductionHypothesis]
    rfl

/-- Pushes, and then a pop for each that found room: the values come back in reverse order and the
list is what it was. -/
theorem inTurn_onList_push_pop (values : List Number) {held : List UInt8} {room : Nat}
    (bounded : held.length + room = 255) :
    inTurn onList (values.map push ++ List.replicate (min values.length room) pop) held =
      (List.replicate (min values.length room) (.ok none) ++
          List.replicate (values.length - room) (.error Fault.stackFull) ++
          (values.take room).reverse.map fun value => .ok (some value.toByte),
        held) := by
  let front := (values.take room).reverse.map Number.toByte
  have count : min values.length room = front.length := by
    rw [List.length_map, List.length_reverse, List.length_take, Nat.min_comm]
  have popping : inTurn onList (List.replicate (min values.length room) pop) (front ++ held) =
      (front.map fun value => .ok (some value), held) := by
    rw [count]
    exact inTurn_onList_pop front held
  rw [inTurn_append, inTurn_onList_push values bounded, popping, List.map_map]
  rfl

end StackCall

/-- The stack over the standard memory is a list of at most 255 bytes. Whatever calls have been made
before, push and pop act on that list and on nothing else; all answers are those of the list; and
values pushed and popped come back in reverse order, with the pointer where it was. -/
theorem stack_refines_list (storage : Storage) (standard : storage.memory.size = 256) :
    (∀ calls : List StackCall,
      let last := (StackCall.inTurn StackCall.perform calls storage).2
      ((StackCall.inTurn StackCall.perform calls storage).1, last.stacked) =
          StackCall.inTurn StackCall.onList calls storage.stacked ∧
        (∀ value, last.Pushes value) ∧ last.Pops ∧ last.depth = last.stacked.length ∧
        last.memory.size = 256 ∧
        ∀ index, index ≠ 7 → last.registers.value index = storage.registers.value index) ∧
    (∀ whole : Int, ((Number.ofInt whole).toByte.toNat : Int) = whole % 256) ∧
    ∀ values : List Number,
      let room := storage.registers.stackPointer.toNat
      let finished := StackCall.inTurn StackCall.perform
        (values.map .push ++ List.replicate (min values.length room) .pop) storage
      finished.1 =
          List.replicate (min values.length room) (.ok none) ++
            List.replicate (values.length - room) (.error Fault.stackFull) ++
            (values.take room).reverse.map (fun value => .ok (some value.toByte)) ∧
        finished.2.stacked = storage.stacked ∧
        finished.2.registers.stackPointer = storage.registers.stackPointer := by
  refine ⟨fun calls => ?_, fun whole => ?_, fun values => ?_⟩
  · obtain ⟨kept, answers⟩ := StackCall.inTurn_perform_refines standard calls
    have size := kept.size.trans standard
    exact ⟨answers, Storage.pushes size, Storage.pops size, Storage.depth_eq_length_stacked size,
      size, kept.registers⟩
  · rw [Number.toByte_ofInt, lowByte, UInt8.toNat_ofNat']
    omega
  · intro room finished
    have bound := storage.registers.stackPointer.toNat_lt
    have bounded : storage.stacked.length + room = 255 := by
      rw [Storage.length_stacked]
      omega
    have answers := (StackCall.inTurn_perform_refines standard
      (values.map .push ++ List.replicate (min values.length room) .pop)).2
    rw [StackCall.inTurn_onList_push_pop values bounded] at answers
    have list : finished.2.stacked = storage.stacked := congrArg Prod.snd answers
    refine ⟨congrArg Prod.fst answers, list, UInt8.toNat_inj.mp ?_⟩
    -- the pointer can be read off the length of the list
    have lengths := congrArg List.length list
    have lastBound := finished.2.registers.stackPointer.toNat_lt
    rw [Storage.length_stacked, Storage.length_stacked] at lengths
    omega

/-- Blank storage with room for two more values. -/
def nearlyFull : Storage where
  memory := .blank 256
  registers := Registers.initial.assign 7 2

/-- Three values are pushed where there is room for two: the third is refused, and the low bytes of
the other two come back. -/
theorem nearlyFull_answers :
    nearlyFull.memory.size = 256 ∧
      (StackCall.inTurn StackCall.perform
        [.push (.ofInt 300), .push (.ofInt (-1)), .push (.ofInt 7), .pop, .pop] nearlyFull).1 =
          [.ok none, .ok none, .error Fault.stackFull, .ok (some 255), .ok (some 44)] := by
  have standard : nearlyFull.memory.size = 256 := Memory.size_blank 256
  refine ⟨standard, ?_⟩
  exact ((stack_refines_list nearlyFull standard).2.2
    [.ofInt 300, .ofInt (-1), .ofInt 7]).1

end EightBit
