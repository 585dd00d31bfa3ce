/-
Execution that goes straight on comes to an end. Every instruction that neither halts nor sends
execution elsewhere is at least two bytes long, and a step that returns has read all of them, so it
ends inside memory or right at its end. The program counter itself is the measure: it grows by two
or more with every such step and never passes the end of memory. What memory holds does not matter,
so a program that writes over its own code is bounded like any other.
-/

import EightBit.Proofs.StraightLine

namespace EightBit

variable {Host : Type}

/-! ### One step -/

/-- Whether the instruction at the program counter sends execution elsewhere: a call, a return, a
jump, or a conditional jump that is taken. -/
def Machine.transfers (machine : Machine) : Bool :=
  machine.fetched.toOption.any fun found => found.2.transfers machine.toStorage

/-- Only a halt and a return are one byte long. -/
theorem Opcode.two_le_length {storage : Storage} {opcode : Opcode}
    (going : opcode.flow = .proceed) (straight : opcode.transfers storage = false) :
    2 ≤ opcode.length := by
  cases opcode with
  | hlt => cases going
  | ret => cases straight
  | push | pop | prn | call | jmp | jeq | jne | ldi | add | sub | mul | cmp => decide

theorem running_of_proceed {devices : Devices Host} {before after : Session Host}
    (done : step devices before = .ok .proceed after) : before.machine.halted = false := by
  cases halted : before.machine.halted with
  | false => rfl
  | true =>
    rw [Command.step_of_halted halted] at done
    cases done

/-- A step that goes straight on moves the program counter by two or more, and not past the end of
memory. -/
theorem pc_of_straight_step {devices : Devices Host} {before after : Session Host}
    (done : step devices before = .ok .proceed after)
    (straight : before.machine.transfers = false) :
    ∃ address next, before.machine.pc = .ofNat address ∧ after.machine.pc = .ofNat next ∧
      address + 2 ≤ next ∧ next ≤ before.machine.memory.size := by
  obtain ⟨address, opcode, fetched, passed, flow, machine⟩ :=
    completed_of_step_ok (running_of_proceed done) done
  obtain ⟨pc, inside, -⟩ := (before.machine.fetched_eq_ok_iff _ _).mp fetched
  have ahead : opcode.transfers before.machine.toStorage = false := by
    rw [Machine.transfers, fetched] at straight
    exact straight
  refine ⟨address, address + opcode.length, pc, ?_,
    Nat.add_le_add_left (Opcode.two_le_length flow.symm ahead) address,
    Opcode.end_le_size inside passed⟩
  rw [machine, ← Opcode.next_of_not_transfers address ahead]
  rfl

/-! ### Steps in a row -/

/-- So many steps in a row that all go on, each with the devices then in place. -/
def GoesOn (devices : Nat → Devices Host) (sessions : Nat → Session Host) (count : Nat) : Prop :=
  ∀ turn < count, step (devices turn) (sessions turn) = .ok .proceed (sessions (turn + 1))

namespace GoesOn

variable {devices : Nat → Devices Host} {sessions : Nat → Session Host} {count : Nat}

theorem of_le {fewer : Nat} (row : GoesOn devices sessions count) (cut : fewer ≤ count) :
    GoesOn devices sessions fewer :=
  fun turn less => row turn (Nat.lt_of_lt_of_le less cut)

theorem size_eq (row : GoesOn devices sessions count) :
    (sessions count).machine.memory.size = (sessions 0).machine.memory.size := by
  induction count with
  | zero => rfl
  | succ count inductionHypothesis =>
    have kept := step_size (devices count) (sessions count)
    rw [row count (Nat.lt_succ_self count)] at kept
    exact kept.trans (inductionHypothesis (row.of_le (Nat.le_succ count)))

/-- Behind a row of steps that went straight on, the program counter is at least twice their
number. -/
theorem le_pc (row : GoesOn devices sessions count)
    (straight : ∀ turn < count, (sessions turn).machine.transfers = false) {place : Nat}
    (pc : (sessions count).machine.pc = .ofNat place) : 2 * count ≤ place := by
  induction count generalizing place with
  | zero => exact Nat.zero_le place
  | succ count inductionHypothesis =>
    obtain ⟨address, next, before, after, further, -⟩ := pc_of_straight_step
      (row count (Nat.lt_succ_self count)) (straight count (Nat.lt_succ_self count))
    have sofar : 2 * count ≤ address :=
      inductionHypothesis (row.of_le (Nat.le_succ count))
        (fun turn less => straight turn (Nat.lt_succ_of_lt less)) before
    have same : next = place := Number.ofNat_inj.mp (after.symm.trans pc)
    omega

/-- A row of steps that go straight on is at most half as long as memory. -/
theorem length_le (row : GoesOn devices sessions count)
    (straight : ∀ turn < count, (sessions turn).machine.transfers = false) :
    2 * count ≤ (sessions 0).machine.memory.size := by
  cases count with
  | zero => exact Nat.zero_le _
  | succ count =>
    obtain ⟨address, next, -, after, -, inside⟩ := pc_of_straight_step
      (row count (Nat.lt_succ_self count)) (straight count (Nat.lt_succ_self count))
    calc 2 * (count + 1)
      _ ≤ next := row.le_pc straight after
      _ ≤ (sessions count).machine.memory.size := inside
      _ = (sessions 0).machine.memory.size := (row.of_le (Nat.le_succ count)).size_eq

end GoesOn

/-! ### Runs -/

/-- A run that is underway is a row of steps that went on. -/
theorem goesOn_of_underway {devices : Devices Host} {first last : Session Host} {count : Nat}
    (underway : stepsUntilEnd devices count first = .underway last) :
    GoesOn (fun _ => devices) (fun turn => (stepsUntilEnd devices turn first).session) count := by
  intro turn less
  obtain ⟨after, further⟩ := underway_of_le underway (Nat.succ_le_of_lt less)
  obtain ⟨middle, before, taken⟩ := exists_step_of_underway further
  simp only [before, further]
  exact taken

theorem isOver_of_straight {devices : Devices Host} {first : Session Host}
    (straight : ∀ turns ≤ first.machine.memory.size / 2, ∀ session,
      stepsUntilEnd devices turns first = .underway session →
        session.machine.transfers = false) :
    (stepsUntilEnd devices (first.machine.memory.size / 2 + 1) first).isOver = true := by
  cases course : stepsUntilEnd devices (first.machine.memory.size / 2 + 1) first with
  | halted | failed => rfl
  | underway last =>
    have length : 2 * (first.machine.memory.size / 2 + 1) ≤ first.machine.memory.size :=
      (goesOn_of_underway course).length_le fun turn less => by
        obtain ⟨session, underway⟩ := underway_of_le course (Nat.le_of_lt less)
        simp only [underway]
        exact straight turn (Nat.le_of_lt_succ less) session underway
    omega

/-- Whatever memory holds and wherever the program counter stands, among steps in a row that all go
on, one more than half as many as memory has cells, there is one that sends execution elsewhere. A
run in which none does is over within as many steps. -/
theorem straight_line_ends :
    (∀ (devices : Nat → Devices Host) (sessions : Nat → Session Host),
      GoesOn devices sessions ((sessions 0).machine.memory.size / 2 + 1) →
      ∃ turn < (sessions 0).machine.memory.size / 2 + 1,
        (sessions turn).machine.transfers = true) ∧
    ∀ (devices : Devices Host) (first : Session Host),
      (∀ turns ≤ first.machine.memory.size / 2, ∀ session,
        run devices turns first = .underway session → session.machine.transfers = false) →
      (run devices (first.machine.memory.size / 2 + 1) first).isOver = true := by
  constructor
  · intro devices sessions row
    by_cases elsewhere : ∃ turn < (sessions 0).machine.memory.size / 2 + 1,
        (sessions turn).machine.transfers = true
    · exact elsewhere
    · have length := row.length_le fun turn less =>
        Bool.eq_false_iff.mpr fun away => elsewhere ⟨turn, less, away⟩
      omega
  · intro devices first straight
    by_cases loaded : first.machine.isLoaded = true
    · rw [run_of_loaded devices _ loaded]
      refine isOver_of_straight fun turns few session underway => straight turns few session ?_
      rw [run_of_loaded devices turns loaded, underway]
    · rw [run_of_not_loaded devices _ loaded]
      rfl

/-- Two pushes and room for one instruction more. The first push writes it there: the byte of a
print, taken from R0. -/
def selfWritten : Session Unit where
  machine :=
    { Machine.create ⟨#[0x45, 0, 0x45, 1, 0, 0]⟩ with
      registers := ((Registers.initial.assign 0 0x47).assign 7 5)
      programLength := 6 }
  host := ()

/-- A jump to itself. -/
def treadmill : Session Unit where
  machine := { Machine.create ⟨#[0x54, 0]⟩ with programLength := 2 }
  host := ()

/-- The machine that writes its own code takes three steps, as many as fit into six cells, and the
last of them executes what the first has written; the fourth does not go on. Two steps of the jump
to itself go on, and one of them is the jump. -/
theorem selfWritten_ends :
    Opcode.decode? (selfWritten.machine.memory.cellOrZero 4) = none ∧
      (run silentDevices 2 selfWritten).session.machine.AboutTo .prn 4 ∧
      (run silentDevices 3 selfWritten).isOver = false ∧
      (run silentDevices 4 selfWritten).isOver = true ∧
      ∃ turn < 2,
        (stepsUntilEnd silentDevices turn treadmill).session.machine.transfers = true := by
  have straight : ∀ turns ≤ 3,
      (run silentDevices turns selfWritten).session.machine.transfers = false := by
    decide +kernel
  have going : (stepsUntilEnd silentDevices 2 treadmill).isOver = false := by decide +kernel
  have row : GoesOn (fun _ => silentDevices)
      (fun turn => (stepsUntilEnd silentDevices turn treadmill).session) 2 := by
    cases course : stepsUntilEnd silentDevices 2 treadmill with
    | underway last => exact goesOn_of_underway course
    | halted | failed =>
      rw [course] at going
      cases going
  refine ⟨by decide, by decide +kernel, by decide +kernel, ?_, ?_⟩
  · refine straight_line_ends.2 silentDevices selfWritten fun turns few session underway => ?_
    have known := straight turns few
    rw [underway] at known
    exact known
  · exact straight_line_ends.1 _ _ row

end EightBit
