/-
Runs, taken apart. A run that is over is a row of steps that went on and one last step that did not;
cut short anywhere in the row it is still underway, and with more turns than it needs it ends in the
same way. Every step that goes on counts, so a run that is underway has counted its turns.
-/

import EightBit.Machine.Run
import EightBit.Proofs.Frame

namespace EightBit

variable {Host : Type} {devices : Devices Host} {first middle last : Session Host} {turns : Nat}

/-! ### Courses -/

namespace Course

def isOver : Course Host → Bool
  | .halted _ | .failed _ _ => true
  | .underway _ => false

/-- The session in which a run ended, or stands. -/
def session : Course Host → Session Host
  | .halted session | .failed _ session | .underway session => session

end Course

theorem run_of_loaded (devices : Devices Host) (turns : Nat)
    (loaded : first.machine.isLoaded = true) :
    run devices turns first = stepsUntilEnd devices turns first :=
  if_pos loaded

theorem run_of_not_loaded (devices : Devices Host) (turns : Nat)
    (empty : ¬ first.machine.isLoaded = true) : run devices turns first = .halted first.halt :=
  if_neg empty

/-- Without a program a run is over at once. -/
theorem isLoaded_of_underway (underway : run devices turns first = .underway last) :
    first.machine.isLoaded = true := by
  by_cases loaded : first.machine.isLoaded = true
  · exact loaded
  · rw [run_of_not_loaded devices turns loaded] at underway
    cases underway

/-! ### Cutting and joining runs -/

/-- A run that is underway goes on from where it stands. -/
theorem stepsUntilEnd_add (more : Nat)
    (underway : stepsUntilEnd devices turns first = .underway middle) :
    stepsUntilEnd devices (turns + more) first = stepsUntilEnd devices more middle := by
  induction turns generalizing first with
  | zero =>
    cases underway
    rw [Nat.zero_add]
  | succ turns inductionHypothesis =>
    rw [Nat.add_right_comm, stepsUntilEnd]
    rw [stepsUntilEnd] at underway
    cases taken : step devices first with
    | error thrown after =>
      rw [taken] at underway
      cases underway
    | ok flow after =>
      rw [taken] at underway
      cases flow with
      | halt => cases underway
      | proceed => exact inductionHypothesis underway

/-- A run that is over is a row of steps that went on, and a last one that did not. -/
theorem exists_last_step (finished : (stepsUntilEnd devices turns first).isOver = true) :
    ∃ earlier middle, earlier < turns ∧
      stepsUntilEnd devices earlier first = .underway middle ∧
      stepsUntilEnd devices 1 middle = stepsUntilEnd devices turns first := by
  induction turns generalizing first with
  | zero => cases finished
  | succ turns inductionHypothesis =>
    rw [stepsUntilEnd] at finished ⊢
    cases taken : step devices first with
    | error thrown after =>
      refine ⟨0, first, Nat.succ_pos turns, rfl, ?_⟩
      rw [stepsUntilEnd, taken]
    | ok flow after =>
      rw [taken] at finished
      cases flow with
      | halt =>
        refine ⟨0, first, Nat.succ_pos turns, rfl, ?_⟩
        rw [stepsUntilEnd, taken]
      | proceed =>
        obtain ⟨earlier, middle, fewer, underway, ended⟩ := inductionHypothesis finished
        refine ⟨earlier + 1, middle, Nat.succ_lt_succ fewer, ?_, ended⟩
        rw [stepsUntilEnd, taken]
        exact underway

/-- Past its last step a run does not change. -/
theorem stepsUntilEnd_of_last_step {more : Nat}
    (underway : stepsUntilEnd devices turns first = .underway middle)
    (finished : (stepsUntilEnd devices 1 middle).isOver = true) (enough : turns < more) :
    stepsUntilEnd devices more first = stepsUntilEnd devices 1 middle := by
  obtain ⟨rest, rfl⟩ := Nat.exists_eq_add_of_lt enough
  rw [Nat.add_assoc, stepsUntilEnd_add _ underway]
  rw [stepsUntilEnd] at finished ⊢
  rw [stepsUntilEnd]
  cases taken : step devices middle with
  | error thrown after => rfl
  | ok flow after =>
    rw [taken] at finished
    cases flow with
    | halt => rfl
    | proceed => cases finished

theorem stepsUntilEnd_of_over {more : Nat}
    (finished : (stepsUntilEnd devices turns first).isOver = true) (enough : turns ≤ more) :
    stepsUntilEnd devices more first = stepsUntilEnd devices turns first := by
  obtain ⟨earlier, middle, fewer, underway, ended⟩ := exists_last_step finished
  rw [← ended] at finished ⊢
  exact stepsUntilEnd_of_last_step underway finished (Nat.lt_of_lt_of_le fewer enough)

/-- Cut short, a run that is underway is underway. -/
theorem underway_of_le {fewer : Nat}
    (underway : stepsUntilEnd devices turns first = .underway last) (cut : fewer ≤ turns) :
    ∃ middle, stepsUntilEnd devices fewer first = .underway middle := by
  cases course : stepsUntilEnd devices fewer first with
  | underway middle => exact ⟨middle, rfl⟩
  | halted after | failed thrown after =>
    have finished : (stepsUntilEnd devices fewer first).isOver = true := by rw [course]; rfl
    rw [stepsUntilEnd_of_over finished cut, course] at underway
    cases underway

/-- The step that makes up a run of one turn. -/
def Course.onlyStep : Course Host → EStateM.Result Thrown (Session Host) Flow
  | .halted session => .ok .halt session
  | .failed thrown session => .error thrown session
  | .underway session => .ok .proceed session

theorem step_eq_onlyStep (devices : Devices Host) (session : Session Host) :
    step devices session = (stepsUntilEnd devices 1 session).onlyStep := by
  rw [stepsUntilEnd]
  rcases step devices session with ⟨_ | _, after⟩ | ⟨thrown, after⟩ <;> rfl

/-- The last turn of a run that is underway was a step that went on. -/
theorem exists_step_of_underway
    (underway : stepsUntilEnd devices (turns + 1) first = .underway last) :
    ∃ middle, stepsUntilEnd devices turns first = .underway middle ∧
      step devices middle = .ok .proceed last := by
  obtain ⟨middle, before⟩ := underway_of_le underway (Nat.le_succ turns)
  rw [stepsUntilEnd_add 1 before] at underway
  refine ⟨middle, before, ?_⟩
  rw [step_eq_onlyStep, underway]
  rfl

/-! ### What every step keeps -/

/-- What holds at first, and of whatever a step leaves if it held before, holds where a run ended or
stands. -/
theorem stepsUntilEnd_induction {motive : Session Host → Prop}
    (kept : ∀ session, motive session → motive (stateLeft (step devices session)))
    (initially : motive first) (turns : Nat) :
    motive (stepsUntilEnd devices turns first).session := by
  induction turns generalizing first with
  | zero => exact initially
  | succ turns inductionHypothesis =>
    have next := kept first initially
    rw [stepsUntilEnd]
    cases taken : step devices first with
    | error thrown after =>
      rw [taken] at next
      exact next
    | ok flow after =>
      rw [taken] at next
      cases flow with
      | halt => exact next
      | proceed => exact inductionHypothesis next

theorem run_induction {motive : Session Host → Prop}
    (kept : ∀ session, motive session → motive (stateLeft (step devices session)))
    (halting : motive first → motive first.halt) (initially : motive first) (turns : Nat) :
    motive (run devices turns first).session := by
  by_cases loaded : first.machine.isLoaded = true
  · rw [run_of_loaded devices turns loaded]
    exact stepsUntilEnd_induction kept initially turns
  · rw [run_of_not_loaded devices turns loaded]
    exact halting initially

/-- Memory has its standard size and the program counter is an integer. -/
structure Machine.Standard (machine : Machine) : Prop where
  size : machine.memory.size = 256
  pc : ∃ place, machine.pc = .ofNat place

theorem standard_step (devices : Devices Host) (session : Session Host)
    (standard : session.machine.Standard) :
    (stateLeft (step devices session)).machine.Standard := by
  refine ⟨(step_size devices session).trans standard.size, ?_⟩
  have outcome := stepped devices session
  generalize step devices session = result at outcome
  cases outcome with
  | idle | unfetched | unobserved | unchecked | unprinted => exact standard.pc
  | completed => exact ⟨_, rfl⟩

theorem standard_run (devices : Devices Host) (turns : Nat)
    (standard : first.machine.Standard) :
    (run devices turns first).session.machine.Standard :=
  run_induction (motive := fun session : Session Host => session.machine.Standard)
    (standard_step devices) (fun standard => ⟨standard.size, standard.pc⟩) standard turns

/-! ### Counting -/

/-- A step after which the machine goes on has counted its instruction. -/
theorem counted_of_proceed (running : first.machine.halted = false)
    (done : step devices first = .ok .proceed last) :
    last.machine.halted = false ∧ last.machine.steps = first.machine.steps + 1 := by
  obtain ⟨address, opcode, -, -, flow, machine⟩ := completed_of_step_ok running done
  rw [machine]
  refine ⟨decide_eq_false fun halting => ?_, rfl⟩
  rw [halting] at flow
  cases flow

theorem counted_of_halt (running : first.machine.halted = false)
    (done : step devices first = .ok .halt last) :
    last.machine.steps = first.machine.steps + 1 := by
  obtain ⟨address, opcode, -, -, -, machine⟩ := completed_of_step_ok running done
  rw [machine]
  rfl

/-- A run that is underway has counted as many steps as it had turns. -/
theorem counted_of_underway (running : first.machine.halted = false)
    (underway : stepsUntilEnd devices turns first = .underway last) :
    last.machine.halted = false ∧ last.machine.steps = first.machine.steps + turns := by
  induction turns generalizing first with
  | zero =>
    cases underway
    exact ⟨running, rfl⟩
  | succ turns inductionHypothesis =>
    rw [stepsUntilEnd] at underway
    cases taken : step devices first with
    | error thrown after =>
      rw [taken] at underway
      cases underway
    | ok flow after =>
      rw [taken] at underway
      cases flow with
      | halt => cases underway
      | proceed =>
        obtain ⟨going, counted⟩ := counted_of_proceed running taken
        obtain ⟨still, total⟩ := inductionHypothesis going underway
        exact ⟨still, by omega⟩

end EightBit
