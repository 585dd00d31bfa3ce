/-
Runners with different listeners. Two runners carry out one program; one host may be told of trace
lines and the other not, or they may do different things with what they are told. As long as the
listeners keep some relation between the hosts and fail together, the two runs are over at the same
time and have the same result.
-/

import EightBit.Proofs.Runner
import EightBit.Proofs.Simulation

namespace EightBit

variable {Host Other : Type}

/-! ### What listeners are told -/

/-- A line that a run hands to its host. -/
inductive Line where
  | trace (text : String)
  | printed (text : String)
  deriving DecidableEq, Repr

/-- Hands a line to the host, if it listens to lines of its kind. -/
def Callbacks.tell (callbacks : Callbacks Host) : Line → EStateM Thrown Host Unit
  | .trace text => callbacks.trace.elim (pure ()) (· text)
  | .printed text => callbacks.output.elim (pure ()) (· text)

/-- The trace line of the instruction at an address. -/
def Machine.lineAt (machine : Machine) (address : Nat) : String :=
  machine.traceLine (Action.observation machine address (machine.memory.cellOrZero address))

theorem Machine.Alike.lineAt {first second : Machine} (alike : first.Alike second)
    (address : Nat) : second.lineAt address = first.lineAt address := by
  obtain ⟨recent, -, rfl⟩ := alike
  rfl

namespace Callbacks

/-- The observer of a runner hands on the trace line. -/
theorem inform_eq (callbacks : Callbacks Host) (machine : Machine) (address : Nat)
    (recorder : Recorder Host) :
    callbacks.devices.inform machine address recorder =
      Recorder.onHost (callbacks.tell (.trace (machine.lineAt address))) recorder := by
  obtain ⟨trace, output⟩ := callbacks
  cases trace <;> rfl

/-- The sink of a runner keeps a printed value as a line, and hands the line on. -/
theorem print_eq (callbacks : Callbacks Host) (value : UInt8) (recorder : Recorder Host) :
    callbacks.devices.print (some value) recorder =
      Recorder.onHost (callbacks.tell (.printed value.toNat.repr))
        { recorder with output := recorder.output.push value.toNat.repr } := by
  obtain ⟨trace, output⟩ := callbacks
  cases output <;> rfl

end Callbacks

/-! ### Listeners side by side -/

/-- The listeners of two hosts keep a relation between them and fail together. -/
structure Callbacks.Correspond (callbacks : Callbacks Host) (others : Callbacks Other)
    (related : Host → Other → Prop) : Prop where
  trace : ∀ (machine : Machine) (address : Nat) {host : Host} {other : Other},
    related host other →
      Matched related (callbacks.tell (.trace (machine.lineAt address)) host)
        (others.tell (.trace (machine.lineAt address)) other)
  printed : ∀ (text : String) {host : Host} {other : Other}, related host other →
    Matched related (callbacks.tell (.printed text) host) (others.tell (.printed text) other)

/-- The same lines were kept, and the hosts are related. -/
structure Recorder.Related (related : Host → Other → Prop) (first : Recorder Host)
    (second : Recorder Other) : Prop where
  output : first.output = second.output
  host : related first.host second.host

variable {related : Host → Other → Prop}

theorem Recorder.onHost_matched {action : EStateM Thrown Host Unit}
    {mate : EStateM Thrown Other Unit} {first : Recorder Host} {second : Recorder Other}
    (output : first.output = second.output)
    (matched : Matched related (action first.host) (mate second.host)) :
    Matched (Recorder.Related related) (Recorder.onHost action first)
      (Recorder.onHost mate second) := by
  unfold Recorder.onHost
  generalize action first.host = result at matched
  generalize mate second.host = other at matched
  cases matched with
  | ok states => exact .ok ⟨output, states⟩
  | error states => exact .error ⟨output, states⟩

variable {callbacks : Callbacks Host} {others : Callbacks Other}

theorem Callbacks.Correspond.devices (corresponding : callbacks.Correspond others related) :
    callbacks.devices.Correspond others.devices (Recorder.Related related) where
  inform := by
    intro first second address recorder other alike hosts
    rw [inform_eq, inform_eq, alike.lineAt]
    exact Recorder.onHost_matched hosts.output (corresponding.trace first address hosts.host)
  print := by
    intro value recorder other hosts
    cases value with
    | none => exact .ok hosts
    | some byte =>
      rw [print_eq, print_eq]
      refine Recorder.onHost_matched ?_ (corresponding.printed _ hosts.host)
      rw [hosts.output]

/-! ### Runners side by side -/

namespace Runner

/-- Two runs stand in the same way, at sessions that are related. -/
inductive Progress.Matched (related : Host → Other → Prop) : Progress Host → Progress Other → Prop
  | ended {ending : Ending} {first : Session (Recorder Host)} {second : Session (Recorder Other)}
      (sessions : first.Related (Recorder.Related related) second) :
      Matched related (.over ending first) (.over ending second)
  | underway {first : Session (Recorder Host)} {second : Session (Recorder Other)}
      (sessions : first.Related (Recorder.Related related) second) :
      Matched related (.underway first) (.underway second)

theorem stepsWithin_matched (corresponding : callbacks.Correspond others related) (limit : Number)
    (turns : Nat) {first : Session (Recorder Host)} {second : Session (Recorder Other)}
    (sessions : first.Related (Recorder.Related related) second) :
    Progress.Matched related (stepsWithin callbacks.devices limit turns first)
      (stepsWithin others.devices limit turns second) := by
  induction turns generalizing first second with
  | zero => exact .underway sessions
  | succ turns inductionHypothesis =>
    rw [stepsWithin, stepsWithin, sessions.machine.steps]
    by_cases below : (Number.ofNat first.machine.steps).lt limit = true
    · rw [if_pos below, if_pos below]
      have taken := step_matched corresponding.devices sessions
      generalize step callbacks.devices first = result at taken
      generalize step others.devices second = mate at taken
      cases taken with
      | error sessions => exact .ended sessions
      | @ok flow _ _ sessions =>
        cases flow with
        | halt => exact .ended sessions
        | proceed => exact inductionHypothesis sessions
    · rw [if_neg below, if_neg below]
      exact .ended sessions

theorem advance_matched (corresponding : callbacks.Correspond others related) (limit : Number)
    (turns : Nat) {first : Session (Recorder Host)} {second : Session (Recorder Other)}
    (sessions : first.Related (Recorder.Related related) second) :
    Progress.Matched related (advance callbacks limit turns first)
      (advance others limit turns second) := by
  unfold advance
  by_cases unlimited : limit.le (.ofNat 0) = true
  · rw [if_pos unlimited, if_pos unlimited]
    have courses := run_matched corresponding.devices turns sessions
    generalize run callbacks.devices turns first = course at courses
    generalize run others.devices turns second = mate at courses
    cases courses with
    | halted sessions | failed sessions => exact .ended sessions
    | underway sessions => exact .underway sessions
  · rw [if_neg unlimited, if_neg unlimited, sessions.machine.isLoaded]
    by_cases loaded : first.machine.isLoaded = true
    · rw [if_pos loaded, if_pos loaded]
      exact stepsWithin_matched corresponding limit turns sessions
    · rw [if_neg loaded, if_neg loaded]
      exact .ended sessions

/-- Sessions that are related leave the same behind. -/
theorem conclude_of_related (ending : Ending) {first : Session (Recorder Host)}
    {second : Session (Recorder Other)}
    (sessions : first.Related (Recorder.Related related) second) :
    conclude ending second = conclude ending first := by
  have left (reason : Reason) (fault : Option Report) :
      leave second reason fault = leave first reason fault := by
    unfold leave
    simp only [sessions.machine.steps, sessions.machine.storage, sessions.host.output]
  cases ending with
  | halt => exact congrArg Except.ok (left .halt none)
  | timeout => exact congrArg Except.ok (left .timeout none)
  | fail thrown =>
    unfold conclude
    simp only [sessions.machine.describe, left]

/-- Two runs are both not over yet, or raise the same, or return the same and leave hosts in a
relation. -/
inductive SameResult (related : Host → Other → Prop) :
    Option (Except Thrown (RunRecord × Host)) → Option (Except Thrown (RunRecord × Other)) → Prop
  | unfinished : SameResult related none none
  | raised (thrown : Thrown) : SameResult related (some (.error thrown)) (some (.error thrown))
  | returned (record : RunRecord) {host : Host} {other : Other} (hosts : related host other) :
      SameResult related (some (.ok (record, host))) (some (.ok (record, other)))

theorem concluded_matched {first : Progress Host} {second : Progress Other}
    (matched : Progress.Matched related first second) :
    SameResult related (concluded first) (concluded second) := by
  cases matched with
  | underway => exact .unfinished
  | @ended ending first second sessions =>
    unfold concluded
    simp only [conclude_of_related ending sessions]
    cases conclude ending first with
    | error thrown => exact .raised thrown
    | ok record => exact .returned record sessions.host.host

theorem execute_matched (corresponding : callbacks.Correspond others related) (limit : Number)
    (turns : Nat) (program : List UInt8) {host : Host} {other : Other}
    (hosts : related host other) :
    SameResult related (execute callbacks limit turns program host)
      (execute others limit turns program other) := by
  unfold execute start
  cases Machine.load program (.create (.blank Memory.standardSize)) with
  | error fault machine => exact .raised (.fault fault)
  | ok _ machine =>
    exact concluded_matched (advance_matched corresponding limit turns ⟨.refl machine, rfl, hosts⟩)

end Runner

end EightBit
