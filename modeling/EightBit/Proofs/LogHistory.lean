/-
The ring of recent addresses stands for a log without end, whatever a host does. The log is kept
here beside the machine: a step that gets an instruction past the observer adds its address, a reset
and a program that is accepted start the log anew, and nothing else touches it. The ring is made of
slots that are used again and again and that not even a reset clears, but of the log it always shows
the last entries, oldest first, as many as are asked for and the ring can hold.
-/

import EightBit.Proofs.FreshStart
import EightBit.Proofs.Log

namespace EightBit

variable {Host : Type}

/-! ### The log of a run -/

/-- The addresses that the steps of a run add to the log. -/
def loggedUntilEnd (devices : Devices Host) : Nat → Session Host → List Nat
  | 0, _ => []
  | turns + 1, session =>
    (loggedBy devices session).toList ++
      match step devices session with
      | .ok .proceed after => loggedUntilEnd devices turns after
      | _ => []

def loggedByRun (devices : Devices Host) (turns : Nat) (session : Session Host) : List Nat :=
  if session.machine.isLoaded then loggedUntilEnd devices turns session else []

namespace Recent.Holds

variable {devices : Devices Host} {session : Session Host} {log : List Nat}

theorem stepsUntilEnd (holds : session.machine.recent.Holds log) (turns : Nat) :
    (EightBit.stepsUntilEnd devices turns session).session.machine.recent.Holds
      (log ++ loggedUntilEnd devices turns session) := by
  induction turns generalizing session log with
  | zero =>
    rw [loggedUntilEnd, List.append_nil]
    exact holds
  | succ turns inductionHypothesis =>
    have next : (stateLeft (EightBit.step devices session)).machine.recent.Holds _ := holds.step
    rw [EightBit.stepsUntilEnd, loggedUntilEnd, ← List.append_assoc]
    generalize EightBit.step devices session = result at next ⊢
    cases result with
    | error thrown after =>
      rw [List.append_nil]
      exact next
    | ok flow after =>
      cases flow with
      | proceed => exact inductionHypothesis next
      | halt =>
        rw [List.append_nil]
        exact next

theorem run (holds : session.machine.recent.Holds log) (turns : Nat) :
    (EightBit.run devices turns session).session.machine.recent.Holds
      (log ++ loggedByRun devices turns session) := by
  unfold loggedByRun
  by_cases loaded : session.machine.isLoaded = true
  · rw [run_of_loaded devices turns loaded, if_pos loaded]
    exact holds.stepsUntilEnd turns
  · rw [run_of_not_loaded devices turns loaded, if_neg loaded, List.append_nil]
    exact holds

end Recent.Holds

/-! ### The log of a history -/

theorem Machine.recent_of_refused {machine after : Machine} {program : List UInt8} {fault : Fault}
    (refused : load program machine = .error fault after) : after.recent = machine.recent := by
  rw [load_apply] at refused
  cases placed : machine.memory.clear.load program (.ofNat 0) with
  | error fault =>
    rw [placed] at refused
    cases refused
    rfl
  | ok memory =>
    rw [placed] at refused
    cases refused

namespace Command

/-- The log after a load. A program that is accepted starts it anew, one that is refused does not
touch it. -/
def logAfterLoad (log : List Nat) : EStateM.Result Fault Machine Unit → List Nat
  | .ok _ _ => []
  | .error _ _ => log

/-- The log after a command. -/
def logAfter (devices : Devices Host) (session : Session Host) (log : List Nat) :
    Command → List Nat
  | .step => log ++ (loggedBy devices session).toList
  | .run turns => log ++ loggedByRun devices turns session
  | .reset => []
  | .load program => logAfterLoad log (Machine.load program session.machine)
  | .setPc _ | .edit _ => log

/-- The log after a history of commands, each with the devices then in place. -/
def logAfterAll : List (Devices Host × Command) → Session Host → List Nat → List Nat
  | [], _, log => log
  | (devices, command) :: rest, session, log =>
    match command.perform devices session with
    | none => log
    | some result => logAfterAll rest (stateLeft result) (command.logAfter devices session log)

theorem holds_load (program : List UInt8) {session : Session Host} {log : List Nat}
    (holds : session.machine.recent.Holds log) :
    (stateLeft (ofLoad session (Machine.load program session.machine))).machine.recent.Holds
      (logAfterLoad log (Machine.load program session.machine)) := by
  cases outcome : Machine.load program session.machine with
  | ok _ after =>
    show after.recent.Holds []
    rw [(Machine.eq_loaded_of_load outcome).2]
    exact Recent.Holds.forget _
  | error fault after =>
    show after.recent.Holds log
    rw [Machine.recent_of_refused outcome]
    exact holds

theorem holds_perform {devices : Devices Host} {session : Session Host} {command : Command}
    {result : EStateM.Result Thrown (Session Host) Answer} {log : List Nat}
    (performed : command.perform devices session = some result)
    (holds : session.machine.recent.Holds log) :
    (stateLeft result).machine.recent.Holds (command.logAfter devices session log) := by
  cases command with
  | step =>
    cases performed
    rw [stateLeft_ofStep]
    exact holds.step
  | run turns =>
    rw [stateLeft_of_ofRun performed]
    exact holds.run turns
  | reset =>
    cases performed
    exact Recent.Holds.forget _
  | load program =>
    cases performed
    exact holds_load program holds
  | setPc target =>
    cases performed
    exact holds
  | edit change =>
    cases performed
    rw [Action.stateLeft_onStorage]
    exact holds

theorem holds_performAll {history : List (Devices Host × Command)} {first last : Session Host}
    {log : List Nat} (performed : performAll history first = some last)
    (holds : first.machine.recent.Holds log) :
    last.machine.recent.Holds (logAfterAll history first log) := by
  induction history generalizing first log with
  | nil =>
    cases performed
    exact holds
  | cons entry rest inductionHypothesis =>
    obtain ⟨devices, command⟩ := entry
    rw [performAll] at performed
    rw [logAfterAll]
    cases ended : command.perform devices first with
    | none =>
      rw [ended] at performed
      cases performed
    | some result =>
      rw [ended] at performed
      exact inductionHypothesis performed (holds_perform ended holds)

end Command

/-- A machine right after it was made, reset or loaded. What is left in its ring from before can be
anything. -/
inductive Machine.Started : Machine → Prop
  | created (memory : Memory) : Started (create memory)
  | reset (machine : Machine) : Started machine.reset
  | loaded {program : List UInt8} {machine after : Machine}
      (accepted : load program machine = .ok () after) : Started after

theorem Machine.Started.holds {machine : Machine} (started : machine.Started) :
    machine.recent.Holds [] := by
  cases started with
  | created memory => exact Recent.Holds.forget .empty
  | reset machine => exact Recent.Holds.forget machine.recent
  | loaded accepted =>
    rw [(eq_loaded_of_load accepted).2]
    exact Recent.Holds.forget _

theorem Recent.Holds.last_entries {recent : Recent} {log : List Nat} (holds : recent.Holds log)
    (count : Nat) :
    recent.last (.ofNat count) = log.drop (log.length - min (min count 32) log.length) := by
  rw [holds.last]
  congr 1
  omega

/-- The ring refines the log. From the start on, after every history and all along a run that goes
on from there, it shows the last entries of the log, oldest first: as many as are asked for, as the
ring can hold, and as there are. -/
theorem ring_refines_log (first : Session Host) (started : first.machine.Started)
    (history : List (Devices Host × Command)) (reached : Session Host)
    (performed : Command.performAll history first = some reached) :
    let log := Command.logAfterAll history first []
    (∀ count : Nat, reached.machine.recent.last (.ofNat count) =
        log.drop (log.length - min (min count 32) log.length)) ∧
      ∀ (devices : Devices Host) (turns count : Nat),
        let longer := log ++ loggedByRun devices turns reached
        (run devices turns reached).session.machine.recent.last (.ofNat count) =
          longer.drop (longer.length - min (min count 32) longer.length) := by
  have holds := Command.holds_performAll performed started.holds
  exact ⟨fun count => holds.last_entries count,
    fun devices turns count => (holds.run turns).last_entries count⟩

/-- A program that prints twice and jumps back to its start is loaded and takes thirty-seven
steps. -/
def lapped : List (Devices Unit × Command) :=
  (silentDevices, .load [0x47, 0, 0x47, 0, 0x54, 0]) :: List.replicate 37 (silentDevices, .step)

/-- An observer that lets nothing pass. -/
def refusing : Devices Unit where
  trace := some fun _ _ => throw (.error "refused")
  output _ := pure ()

/-- Then it is reset and steps twice, and a third step is stopped by the observer. -/
def lappedAgain : List (Devices Unit × Command) :=
  lapped ++ [(silentDevices, .reset), (silentDevices, .step), (silentDevices, .step),
    (refusing, .step)]

/-- The ring has been filled and begun anew, and shows the last thirty-two addresses of the log.
After the reset it shows the two that were executed since, and none of those that are left in its
slots. -/
theorem lapped_shown :
    ∃ reached restarted,
      Command.performAll lapped ⟨.create (.blank 6), ()⟩ = some reached ∧
      Command.performAll lappedAgain ⟨.create (.blank 6), ()⟩ = some restarted ∧
      (Command.logAfterAll lapped ⟨.create (.blank 6), ()⟩ []).length = 37 ∧
      reached.machine.recent.last (.ofNat 40) =
        (Command.logAfterAll lapped ⟨.create (.blank 6), ()⟩ []).drop 5 ∧
      restarted.machine.recent.last (.ofNat 40) = [0, 2] := by
  have first : (Command.performAll lapped ⟨.create (.blank 6), ()⟩).isSome = true := by
    decide +kernel
  have second : (Command.performAll lappedAgain ⟨.create (.blank 6), ()⟩).isSome = true := by
    decide +kernel
  obtain ⟨reached, performed⟩ := Option.isSome_iff_exists.mp first
  obtain ⟨restarted, again⟩ := Option.isSome_iff_exists.mp second
  have length : (Command.logAfterAll lapped ⟨.create (.blank 6), ()⟩ []).length = 37 := by
    decide +kernel
  have log : Command.logAfterAll lappedAgain ⟨.create (.blank 6), ()⟩ [] = [0, 2] := by
    decide +kernel
  have shown := (ring_refines_log _ (.created (.blank 6)) lapped reached performed).1 40
  have later := (ring_refines_log _ (.created (.blank 6)) lappedAgain restarted again).1 40
  rw [length] at shown
  rw [log] at later
  exact ⟨reached, restarted, performed, again, length, shown, later⟩

end EightBit
