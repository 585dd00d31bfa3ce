/-
Two machines side by side. Machines that differ at most in log entries which nothing can show take
the same steps: they execute the same instructions, fail with the same faults, and can still not be
told apart afterwards. The hosts beside them need not be the same, and neither need the devices. It
is enough that the hosts are in some relation which the devices of the two sides keep, and that the
devices succeed and fail together.
-/

import EightBit.Proofs.Recents
import EightBit.Proofs.Runs
import EightBit.Report

namespace EightBit

variable {Host Other : Type}

/-! ### Machines that cannot be told apart -/

namespace Machine

/-- Two machines differ at most in log entries that nothing can show. -/
def Alike (first second : Machine) : Prop :=
  ∃ recent, first.recent.Agrees recent ∧ second = { first with recent }

theorem Alike.refl (machine : Machine) : machine.Alike machine :=
  ⟨machine.recent, .refl machine.recent, rfl⟩

section

variable {first second : Machine}

theorem Alike.storage (alike : first.Alike second) : second.toStorage = first.toStorage := by
  obtain ⟨recent, -, rfl⟩ := alike
  rfl

theorem Alike.halted (alike : first.Alike second) : second.halted = first.halted := by
  obtain ⟨recent, -, rfl⟩ := alike
  rfl

theorem Alike.steps (alike : first.Alike second) : second.steps = first.steps := by
  obtain ⟨recent, -, rfl⟩ := alike
  rfl

theorem Alike.isLoaded (alike : first.Alike second) : second.isLoaded = first.isLoaded := by
  obtain ⟨recent, -, rfl⟩ := alike
  rfl

theorem Alike.fetched (alike : first.Alike second) : second.fetched = first.fetched := by
  obtain ⟨recent, -, rfl⟩ := alike
  rfl

/-- Machines that cannot be told apart are described by the same report. -/
theorem Alike.describe (alike : first.Alike second) (thrown : Thrown) :
    Report.describe thrown second = Report.describe thrown first := by
  obtain ⟨recent, agrees, rfl⟩ := alike
  unfold Report.describe
  simp only [agrees.last]
  rfl

theorem Alike.counted (alike : first.Alike second) (address : Nat) :
    (first.counted address).Alike (second.counted address) := by
  obtain ⟨recent, agrees, rfl⟩ := alike
  exact ⟨recent.record address, agrees.record address, rfl⟩

theorem Alike.stopped (alike : first.Alike second) :
    first.stopped.Alike second.stopped := by
  obtain ⟨recent, agrees, rfl⟩ := alike
  exact ⟨recent, agrees, rfl⟩

theorem Alike.completed (alike : first.Alike second) (address : Nat) (opcode : Opcode) :
    (first.completed address opcode).Alike (second.completed address opcode) := by
  obtain ⟨recent, agrees, rfl⟩ := alike
  exact ⟨recent.record address, agrees.record address, rfl⟩

end

end Machine

/-! ### Computations that come to the same -/

/-- Two computations return the same value or raise the same, and leave states in a relation. -/
inductive Matched {Raised State Mate Value : Type} (related : State → Mate → Prop) :
    EStateM.Result Raised State Value → EStateM.Result Raised Mate Value → Prop
  | ok {value : Value} {first : State} {second : Mate} (states : related first second) :
      Matched related (.ok value first) (.ok value second)
  | error {raised : Raised} {first : State} {second : Mate} (states : related first second) :
      Matched related (.error raised first) (.error raised second)

namespace Matched

variable {Raised State Mate Value : Type} {related : State → Mate → Prop}

theorem exists_of_ok {result : EStateM.Result Raised State Value}
    {mate : EStateM.Result Raised Mate Value} {value : Value} {first : State}
    (matched : Matched related result mate) (returned : result = .ok value first) :
    ∃ second, mate = .ok value second ∧ related first second := by
  cases matched with
  | ok states =>
    cases returned
    exact ⟨_, rfl, states⟩
  | error => cases returned

theorem exists_of_error {result : EStateM.Result Raised State Value}
    {mate : EStateM.Result Raised Mate Value} {raised : Raised} {first : State}
    (matched : Matched related result mate) (failed : result = .error raised first) :
    ∃ second, mate = .error raised second ∧ related first second := by
  cases matched with
  | ok => cases failed
  | error states =>
    cases failed
    exact ⟨_, rfl, states⟩

theorem refl (result : EStateM.Result Raised State Value) : Matched Eq result result := by
  cases result with
  | ok value state => exact .ok rfl
  | error raised state => exact .error rfl

end Matched

/-- The devices of two machines that cannot be told apart succeed and fail together and keep a
relation between the hosts. -/
structure Devices.Correspond (devices : Devices Host) (others : Devices Other)
    (related : Host → Other → Prop) : Prop where
  inform : ∀ {first second : Machine} (address : Nat) {host : Host} {other : Other},
    first.Alike second → related host other →
      Matched related (devices.inform first address host) (others.inform second address other)
  print : ∀ (value : Option UInt8) {host : Host} {other : Other}, related host other →
    Matched related (devices.print value host) (others.print value other)

/-- The machines cannot be told apart and the hosts are related. -/
structure Session.Related (related : Host → Other → Prop) (first : Session Host)
    (second : Session Other) : Prop where
  machine : first.machine.Alike second.machine
  host : related first.host second.host

/-! ### Steps and runs -/

variable {devices : Devices Host} {others : Devices Other} {related : Host → Other → Prop}

theorem step_matched (corresponding : devices.Correspond others related) {first : Session Host}
    {second : Session Other} (sessions : first.Related related second) :
    Matched (Session.Related related) (step devices first) (step others second) := by
  have alike := sessions.machine
  have outcome := stepped devices first
  generalize step devices first = result at outcome
  cases outcome with
  | idle halted =>
    have still : step others second = .ok .halt second := if_pos (alike.halted.trans halted)
    rw [still]
    exact .ok sessions
  | unfetched running fetched =>
    rw [step_unfetched others (alike.halted.trans running) (alike.fetched.trans fetched)]
    exact .error ⟨alike.stopped, sessions.host⟩
  | unobserved running fetched informed =>
    obtain ⟨mate, told, hosts⟩ :=
      (corresponding.inform _ alike sessions.host).exists_of_error informed
    rw [step_unobserved (alike.halted.trans running) (alike.fetched.trans fetched) told]
    exact .error ⟨alike.stopped, hosts⟩
  | unchecked running fetched informed failed =>
    obtain ⟨mate, told, hosts⟩ := (corresponding.inform _ alike sessions.host).exists_of_ok informed
    rw [← alike.storage] at failed
    rw [step_unchecked (alike.halted.trans running) (alike.fetched.trans fetched) told failed]
    exact .error ⟨(alike.counted _).stopped, hosts⟩
  | unprinted running fetched informed passed printed =>
    obtain ⟨mate, told, hosts⟩ := (corresponding.inform _ alike sessions.host).exists_of_ok informed
    obtain ⟨last, shown, hosts⟩ := (corresponding.print _ hosts).exists_of_error printed
    rw [← alike.storage] at passed shown
    rw [step_unprinted (alike.halted.trans running) (alike.fetched.trans fetched) told passed shown]
    exact .error ⟨(alike.counted _).stopped, hosts⟩
  | completed running fetched informed passed printed =>
    obtain ⟨mate, told, hosts⟩ := (corresponding.inform _ alike sessions.host).exists_of_ok informed
    obtain ⟨last, shown, hosts⟩ := (corresponding.print _ hosts).exists_of_ok printed
    rw [← alike.storage] at passed shown
    rw [step_completed (alike.halted.trans running) (alike.fetched.trans fetched) told passed shown]
    exact .ok ⟨alike.completed _ _, hosts⟩

/-- Two runs stand in the same way, at sessions that are related. -/
inductive Course.Matched (related : Host → Other → Prop) : Course Host → Course Other → Prop
  | halted {first : Session Host} {second : Session Other}
      (sessions : first.Related related second) : Matched related (.halted first) (.halted second)
  | failed {thrown : Thrown} {first : Session Host} {second : Session Other}
      (sessions : first.Related related second) :
      Matched related (.failed thrown first) (.failed thrown second)
  | underway {first : Session Host} {second : Session Other}
      (sessions : first.Related related second) :
      Matched related (.underway first) (.underway second)

theorem stepsUntilEnd_matched (corresponding : devices.Correspond others related) (turns : Nat)
    {first : Session Host} {second : Session Other} (sessions : first.Related related second) :
    Course.Matched related (stepsUntilEnd devices turns first)
      (stepsUntilEnd others turns second) := by
  induction turns generalizing first second with
  | zero => exact .underway sessions
  | succ turns inductionHypothesis =>
    have taken := step_matched corresponding sessions
    rw [stepsUntilEnd, stepsUntilEnd]
    generalize step devices first = result at taken
    generalize step others second = mate at taken
    cases taken with
    | error sessions => exact .failed sessions
    | @ok flow _ _ sessions =>
      cases flow with
      | halt => exact .halted sessions
      | proceed => exact inductionHypothesis sessions

theorem run_matched (corresponding : devices.Correspond others related) (turns : Nat)
    {first : Session Host} {second : Session Other} (sessions : first.Related related second) :
    Course.Matched related (run devices turns first) (run others turns second) := by
  have program := sessions.machine.isLoaded
  by_cases loaded : first.machine.isLoaded = true
  · rw [run_of_loaded devices turns loaded, run_of_loaded others turns (program.trans loaded)]
    exact stepsUntilEnd_matched corresponding turns sessions
  · rw [run_of_not_loaded devices turns loaded,
      run_of_not_loaded others turns (program.symm ▸ loaded)]
    exact .halted ⟨sessions.machine.stopped, sessions.host⟩

end EightBit
