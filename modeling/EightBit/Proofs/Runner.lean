/-
What the runner adds to the machine: a session to start from, devices that keep the printed lines,
and the result made of a run that is over. The runner is given turns and says nothing until the run
is over within them; what it says then does not depend on how many they were. Printed lines are only
ever added at the end. A run that is over is a row of steps that went on, with one last step behind
them or a limit that cuts it off. It has a result, unless the host has raised something that there
are no words for.
-/

import EightBit.Proofs.Commands
import EightBit.Proofs.Reports
import EightBit.Proofs.Runs
import EightBit.Runner

namespace EightBit

variable {Host : Type}

/-! ### The devices of a runner -/

namespace Callbacks

/-- The host never fails when it is handed a trace line. -/
def Calm (callbacks : Callbacks Host) : Prop :=
  ∀ trace, callbacks.trace = some trace → ∀ line host, ∃ after, trace line host = .ok () after

/-- Without listeners there is no one to fail. -/
theorem calm_silent : (⟨none, none⟩ : Callbacks Host).Calm :=
  fun _ given => by cases given

theorem inform_of_calm {callbacks : Callbacks Host} (calm : callbacks.Calm) (machine : Machine)
    (address : Nat) (recorder : Recorder Host) :
    ∃ after, callbacks.devices.inform machine address recorder = .ok () after := by
  unfold Devices.inform devices
  cases given : callbacks.trace with
  | none => exact ⟨recorder, rfl⟩
  | some trace =>
    obtain ⟨host, returned⟩ := calm trace given
      (machine.traceLine (Action.observation machine address (machine.memory.cellOrZero address)))
      recorder.host
    refine ⟨{ recorder with host }, ?_⟩
    simp only [Option.map_some, Recorder.onHost, returned]

/-- What the host raises when it is handed a line can be put into words. -/
def Legible (callbacks : Callbacks Host) : Prop :=
  ∀ listener, callbacks.trace = some listener ∨ callbacks.output = some listener →
    ∀ line host thrown after, listener line host = .error thrown after → thrown.Legible

theorem legible_silent : (⟨none, none⟩ : Callbacks Host).Legible := by
  rintro _ (given | given) <;> cases given

theorem output_onHost (action : EStateM Thrown Host Unit) (recorder : Recorder Host) :
    (stateLeft (Recorder.onHost action recorder)).output = recorder.output := by
  unfold Recorder.onHost
  cases action recorder.host <;> rfl

theorem exists_onHost_error {action : EStateM Thrown Host Unit} {recorder after : Recorder Host}
    {thrown : Thrown} (failed : Recorder.onHost action recorder = .error thrown after) :
    ∃ host, action recorder.host = .error thrown host := by
  unfold Recorder.onHost at failed
  cases told : action recorder.host with
  | ok _ host =>
    rw [told] at failed
    cases failed
  | error raised host =>
    rw [told] at failed
    cases failed
    exact ⟨host, rfl⟩

theorem Legible.inform {callbacks : Callbacks Host} (legible : callbacks.Legible)
    {machine : Machine} {address : Nat} {recorder after : Recorder Host} {thrown : Thrown}
    (informed : callbacks.devices.inform machine address recorder = .error thrown after) :
    thrown.Legible := by
  unfold Devices.inform devices at informed
  cases given : callbacks.trace with
  | none =>
    rw [given] at informed
    cases informed
  | some trace =>
    rw [given] at informed
    obtain ⟨host, raised⟩ := exists_onHost_error informed
    exact legible trace (Or.inl given) _ _ _ _ raised

theorem Legible.print {callbacks : Callbacks Host} (legible : callbacks.Legible)
    {value : Option UInt8} {recorder after : Recorder Host} {thrown : Thrown}
    (printed : callbacks.devices.print value recorder = .error thrown after) :
    thrown.Legible := by
  cases value with
  | none => cases printed
  | some byte =>
    obtain ⟨trace, listener⟩ := callbacks
    cases listener with
    | none => cases printed
    | some output =>
      obtain ⟨host, raised⟩ := exists_onHost_error printed
      exact legible output (Or.inr rfl) _ _ _ _ raised

theorem output_inform {callbacks : Callbacks Host} {machine : Machine} {address : Nat}
    {recorder : Recorder Host} {result : EStateM.Result Thrown (Recorder Host) Unit}
    (informed : callbacks.devices.inform machine address recorder = result) :
    recorder.output.toList = (stateLeft result).output.toList := by
  subst informed
  unfold Devices.inform devices
  cases callbacks.trace with
  | none => rfl
  | some trace => exact congrArg Array.toList (output_onHost _ recorder).symm

/-- Printing adds lines at the end, also when the host then fails. -/
theorem output_print {callbacks : Callbacks Host} {value : Option UInt8}
    {recorder : Recorder Host} {result : EStateM.Result Thrown (Recorder Host) Unit}
    (printed : callbacks.devices.print value recorder = result) :
    recorder.output.toList <+: (stateLeft result).output.toList := by
  subst printed
  cases value with
  | none => exact List.prefix_rfl
  | some byte =>
    have kept : recorder.output.toList <+: (recorder.output.push byte.toNat.repr).toList := by
      rw [Array.toList_push]
      exact List.prefix_append _ _
    obtain ⟨trace, listener⟩ := callbacks
    cases listener with
    | none => exact kept
    | some output =>
      show _ <+: (stateLeft (Recorder.onHost (output byte.toNat.repr)
        { recorder with output := recorder.output.push byte.toNat.repr })).output.toList
      rw [output_onHost]
      exact kept

end Callbacks

/-- A step only adds to what was printed. -/
theorem output_step (callbacks : Callbacks Host) (session : Session (Recorder Host)) :
    session.host.output.toList <+:
      (stateLeft (step callbacks.devices session)).host.output.toList := by
  have outcome := stepped callbacks.devices session
  generalize step callbacks.devices session = result at outcome
  cases outcome with
  | idle | unfetched => exact List.prefix_rfl
  | unobserved _ _ informed | unchecked _ _ informed =>
    rw [Callbacks.output_inform informed]
    exact List.prefix_rfl
  | unprinted _ _ informed _ printed | completed _ _ informed _ printed =>
    rw [Callbacks.output_inform informed]
    exact Callbacks.output_print printed

/-- What a step raises is a fault or comes from the host. -/
theorem legible_of_step_error {callbacks : Callbacks Host} (legible : callbacks.Legible)
    {session after : Session (Recorder Host)} {thrown : Thrown}
    (failed : step callbacks.devices session = .error thrown after) : thrown.Legible := by
  have outcome := stepped callbacks.devices session
  rw [failed] at outcome
  cases outcome with
  | unfetched | unchecked => trivial
  | unobserved _ _ informed => exact legible.inform informed
  | unprinted _ _ _ _ printed => exact legible.print printed

theorem output_stepsUntilEnd (callbacks : Callbacks Host) (turns : Nat)
    (first : Session (Recorder Host)) :
    first.host.output.toList <+:
      (stepsUntilEnd callbacks.devices turns first).session.host.output.toList := by
  refine stepsUntilEnd_induction
    (motive := fun session : Session (Recorder Host) =>
      first.host.output.toList <+: session.host.output.toList)
    (fun session added => ?_) List.prefix_rfl turns
  exact added.trans (output_step callbacks session)

/-! ### What a run returns -/

namespace Runner

/-- The session a run starts from. -/
def initial (program : List UInt8) (host : Host) : Session (Recorder Host) where
  machine := (Machine.create (.blank Memory.standardSize)).loaded program
  host := { output := #[], host }

theorem start_of_short {program : List UInt8} (host : Host) (short : program.length ≤ 256) :
    start program host = .ok (initial program host) := by
  have size : (Machine.create (.blank Memory.standardSize)).memory.size = 256 :=
    Memory.size_blank Memory.standardSize
  unfold start
  rw [Machine.load_of_fits (size.symm ▸ short) (by omega)]
  rfl

theorem standard_initial (program : List UInt8) (host : Host) :
    (initial program host).machine.Standard := by
  refine ⟨(Memory.size_overlay _ 0 program).trans ?_, 0, rfl⟩
  exact (Memory.size_blank _).trans (Memory.size_blank _)

/-- The machine of a run, as it stands after a number of turns. -/
def machineAfter (callbacks : Callbacks Host) (program : List UInt8) (host : Host)
    (turns : Nat) : Machine :=
  (run callbacks.devices turns (initial program host)).session.machine

section

variable {callbacks : Callbacks Host} {program : List UInt8} {host : Host} {turns : Nat}
  {session : Session (Recorder Host)}

theorem standard_of_underway
    (underway : run callbacks.devices turns (initial program host) = .underway session) :
    session.machine.Standard := by
  have standard := standard_run callbacks.devices turns (standard_initial program host)
  rw [underway] at standard
  exact standard

theorem steps_of_underway
    (underway : run callbacks.devices turns (initial program host) = .underway session) :
    session.machine.steps = turns := by
  rw [run_of_loaded _ _ (isLoaded_of_underway underway)] at underway
  exact (counted_of_underway rfl underway).2.trans (Nat.zero_add turns)

theorem machineAfter_of_underway
    (underway : run callbacks.devices turns (initial program host) = .underway session) :
    machineAfter callbacks program host turns = session.machine := by
  unfold machineAfter
  rw [underway]
  rfl

end

theorem execute_eq_concluded (callbacks : Callbacks Host) (limit : Number) (turns : Nat)
    {program : List UInt8} (host : Host) (short : program.length ≤ 256) :
    execute callbacks limit turns program host =
      concluded (advance callbacks limit turns (initial program host)) := by
  unfold execute
  rw [start_of_short host short]

/-- A run of a program is over after some number of turns, with a result. -/
def Returns (callbacks : Callbacks Host) (limit : Number) (program : List UInt8) (host : Host)
    (result : RunRecord × Host) : Prop :=
  ∃ turns, execute callbacks limit turns program host = some (.ok result)

def Ending.reason : Ending → Reason
  | .halt => .halt
  | .fail _ => .fail
  | .timeout => .timeout

/-- A failure, and nothing else, is explained by its report. -/
def Ending.ExplainedBy (machine : Machine) (fault : Option Report) : Ending → Prop
  | .fail thrown => ∃ report, fault = some report ∧ Report.describe thrown machine = .ok report
  | .halt | .timeout => fault = none

/-- A result is what the last session leaves. -/
theorem eq_leave_of_concluded {ending : Ending} {after : Session (Recorder Host)}
    {result : RunRecord × Host} (returned : concluded (.over ending after) = some (.ok result)) :
    ∃ fault, result = (leave after ending.reason fault, after.host.host) ∧
      ending.ExplainedBy after.machine fault := by
  cases ending with
  | halt | timeout =>
    cases returned
    exact ⟨none, rfl, rfl⟩
  | fail thrown =>
    cases described : Report.describe thrown after.machine with
    | error fault =>
      simp only [concluded, conclude, described] at returned
      cases returned
    | ok report =>
      simp only [concluded, conclude, described] at returned
      cases returned
      exact ⟨some report, rfl, report, rfl, described⟩

/-! ### How a run ends -/

variable {callbacks : Callbacks Host} {program : List UInt8} {host : Host}

/-- How a run ends behind a row of steps that went on: it is cut off, or one step more is the
last. -/
inductive LastStep (devices : Devices (Recorder Host)) (reached : Session (Recorder Host)) :
    Ending → Session (Recorder Host) → Prop
  | cutOff : LastStep devices reached .timeout reached
  | halted {after : Session (Recorder Host)} (taken : step devices reached = .ok .halt after) :
      LastStep devices reached .halt after
  | failed {thrown : Thrown} {after : Session (Recorder Host)}
      (taken : step devices reached = .error thrown after) :
      LastStep devices reached (.fail thrown) after

theorem exists_lastStep_of_stepsWithin {devices : Devices (Recorder Host)} {limit : Number}
    {turns : Nat} {first after : Session (Recorder Host)} {ending : Ending}
    (ended : stepsWithin devices limit turns first = .over ending after) :
    ∃ earlier reached, stepsUntilEnd devices earlier first = .underway reached ∧
      LastStep devices reached ending after := by
  induction turns generalizing first with
  | zero => cases ended
  | succ turns inductionHypothesis =>
    rw [stepsWithin] at ended
    by_cases below : (Number.ofNat first.machine.steps).lt limit = true
    · rw [if_pos below] at ended
      cases taken : step devices first with
      | error thrown next =>
        rw [taken] at ended
        cases ended
        exact ⟨0, first, rfl, .failed taken⟩
      | ok flow next =>
        rw [taken] at ended
        cases flow with
        | halt =>
          cases ended
          exact ⟨0, first, rfl, .halted taken⟩
        | proceed =>
          obtain ⟨earlier, reached, underway, last⟩ := inductionHypothesis ended
          refine ⟨earlier + 1, reached, ?_, last⟩
          rw [stepsUntilEnd, taken]
          exact underway
    · rw [if_neg below] at ended
      cases ended
      exact ⟨0, _, rfl, .cutOff⟩

theorem exists_lastStep_of_advance {limit : Number} {turns : Nat}
    {first after : Session (Recorder Host)} {ending : Ending}
    (loaded : first.machine.isLoaded = true)
    (ended : advance callbacks limit turns first = .over ending after) :
    ∃ earlier reached, stepsUntilEnd callbacks.devices earlier first = .underway reached ∧
      LastStep callbacks.devices reached ending after := by
  unfold advance at ended
  by_cases unlimited : limit.le (.ofNat 0) = true
  · rw [if_pos unlimited, run_of_loaded _ _ loaded] at ended
    cases course : stepsUntilEnd callbacks.devices turns first with
    | underway session =>
      rw [course] at ended
      cases ended
    | halted session =>
      rw [course] at ended
      cases ended
      obtain ⟨earlier, reached, -, underway, last⟩ := exists_last_step (by rw [course]; rfl)
      refine ⟨earlier, reached, underway, .halted ?_⟩
      rw [step_eq_onlyStep, last, course]
      rfl
    | failed thrown session =>
      rw [course] at ended
      cases ended
      obtain ⟨earlier, reached, -, underway, last⟩ := exists_last_step (by rw [course]; rfl)
      refine ⟨earlier, reached, underway, .failed ?_⟩
      rw [step_eq_onlyStep, last, course]
      rfl
  · rw [if_neg unlimited, if_pos loaded] at ended
    exact exists_lastStep_of_stepsWithin ended

/-- Without a program there is nothing to run. -/
theorem unmoved_of_advance {limit : Number} {turns : Nat}
    {first after : Session (Recorder Host)} {ending : Ending}
    (empty : ¬ first.machine.isLoaded = true)
    (ended : advance callbacks limit turns first = .over ending after) :
    after = first ∨ after = first.halt := by
  unfold advance at ended
  by_cases unlimited : limit.le (.ofNat 0) = true
  · rw [if_pos unlimited, run_of_not_loaded _ _ empty] at ended
    cases ended
    exact Or.inr rfl
  · rw [if_neg unlimited, if_neg empty] at ended
    cases ended
    exact Or.inl rfl

/-- Every machine of a run has its standard shape, also the last one. -/
theorem standard_of_over {limit : Number} {turns : Nat} {after : Session (Recorder Host)}
    {ending : Ending}
    (ended : advance callbacks limit turns (initial program host) = .over ending after) :
    after.machine.Standard := by
  have start := standard_initial program host
  by_cases loaded : (initial program host).machine.isLoaded = true
  · obtain ⟨earlier, reached, underway, last⟩ := exists_lastStep_of_advance loaded ended
    have standard := standard_run callbacks.devices earlier start
    rw [run_of_loaded _ _ loaded, underway] at standard
    have next := standard_step callbacks.devices reached standard
    cases last with
    | cutOff => exact standard
    | halted taken | failed taken =>
      rw [taken] at next
      exact next
  · rcases unmoved_of_advance loaded ended with rfl | rfl
    · exact start
    · exact ⟨start.size, start.pc⟩

theorem isLoaded_of_failed {limit : Number} {turns : Nat} {thrown : Thrown}
    {first after : Session (Recorder Host)}
    (ended : advance callbacks limit turns first = .over (.fail thrown) after) :
    first.machine.isLoaded = true := by
  by_cases loaded : first.machine.isLoaded = true
  · exact loaded
  · unfold advance at ended
    rw [run_of_not_loaded _ _ loaded, if_neg loaded] at ended
    split at ended <;> cases ended

/-- A run that fails is a row of steps that went on and one that fails. -/
theorem exists_failing_step {limit : Number} {turns : Nat} {thrown : Thrown}
    {after : Session (Recorder Host)}
    (ended : advance callbacks limit turns (initial program host) = .over (.fail thrown) after) :
    ∃ earlier before, run callbacks.devices earlier (initial program host) = .underway before ∧
      step callbacks.devices before = .error thrown after := by
  have loaded := isLoaded_of_failed ended
  obtain ⟨earlier, before, underway, last⟩ := exists_lastStep_of_advance loaded ended
  cases last with
  | failed taken => exact ⟨earlier, before, (run_of_loaded _ _ loaded).trans underway, taken⟩

/-- A failure can be put into words; other endings need none. -/
def Ending.Legible : Ending → Prop
  | .fail thrown => thrown.Legible
  | .halt | .timeout => True

theorem legible_of_over (legible : callbacks.Legible) {limit : Number} {turns : Nat}
    {after : Session (Recorder Host)} {ending : Ending}
    (ended : advance callbacks limit turns (initial program host) = .over ending after) :
    ending.Legible := by
  cases ending with
  | halt | timeout => trivial
  | fail thrown =>
    obtain ⟨earlier, before, -, failed⟩ := exists_failing_step ended
    exact legible_of_step_error legible failed

/-- A run that is over has a result: the machine can be described if it failed. -/
theorem exists_concluded {ending : Ending} {after : Session (Recorder Host)}
    (standard : after.machine.Standard) (legible : ending.Legible) :
    ∃ result, concluded (.over ending after) = some (.ok result) := by
  cases ending with
  | halt | timeout => exact ⟨_, rfl⟩
  | fail thrown =>
    have size := standard.size
    obtain ⟨place, pc⟩ := standard.pc
    obtain ⟨report, described⟩ := Report.exists_describe pc (by omega) legible
    refine ⟨(leave after .fail (some report), after.host.host), ?_⟩
    simp only [concluded, conclude, described]
    rfl

/-- A run that returns has come to an end, and returns what its last session leaves. -/
theorem exists_ending (short : program.length ≤ 256) {limit : Number} {turns : Nat}
    {result : RunRecord × Host}
    (returned : execute callbacks limit turns program host = some (.ok result)) :
    ∃ ending after fault,
      advance callbacks limit turns (initial program host) = .over ending after ∧
      result = (leave after ending.reason fault, after.host.host) ∧
      ending.ExplainedBy after.machine fault := by
  rw [execute_eq_concluded callbacks limit turns host short] at returned
  rcases progress : advance callbacks limit turns (initial program host) with
    ⟨ending, after⟩ | after
  · rw [progress] at returned
    obtain ⟨fault, rfl, explained⟩ := eq_leave_of_concluded returned
    exact ⟨ending, after, fault, rfl, rfl, explained⟩
  · rw [progress] at returned
    cases returned

/-- The memory that a run returns has its standard size. -/
theorem length_memory_of_returned (short : program.length ≤ 256) {limit : Number} {turns : Nat}
    {record : RunRecord} {final : Host}
    (returned : execute callbacks limit turns program host = some (.ok (record, final))) :
    record.memory.toList.length = 256 := by
  obtain ⟨ending, after, fault, progress, result, -⟩ := exists_ending short returned
  cases result
  exact (standard_of_over progress).size

/-- A run that is over returns, if the host raises nothing that cannot be put into words. -/
theorem exists_result (legible : callbacks.Legible) (short : program.length ≤ 256)
    {limit : Number} {turns : Nat} {outcome : Except Thrown (RunRecord × Host)}
    (ended : execute callbacks limit turns program host = some outcome) :
    ∃ result, outcome = .ok result := by
  rw [execute_eq_concluded callbacks limit turns host short] at ended
  rcases progress : advance callbacks limit turns (initial program host) with
    ⟨ending, after⟩ | after
  · rw [progress] at ended
    obtain ⟨result, concluding⟩ :=
      exists_concluded (standard_of_over progress) (legible_of_over legible progress)
    rw [concluding] at ended
    cases ended
    exact ⟨result, rfl⟩
  · rw [progress] at ended
    cases ended

end Runner

end EightBit
