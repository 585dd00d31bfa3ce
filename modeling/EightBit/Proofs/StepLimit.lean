/-
A limit on the number of steps cuts a run short and does nothing else. With the limit, the steps are
taken by a loop of their own that looks at the count before each of them; without it, by the run of
the machine. The two loops agree turn by turn as long as the count is below the limit, because every
step that goes on counts once. What is left to tell apart is the very last step: it counts when its
instruction was decoded, and then the limit still lets it happen, or it does not count, and then a
limit of as many steps stops the run just before it.
-/

import EightBit.Proofs.Atomicity
import EightBit.Proofs.Runner

namespace EightBit

variable {Host : Type}

/-! ### The loop with a limit -/

namespace Runner

/-- What a limit makes of the run it cuts short: underway there, it has run out of time. -/
def atLimit : Course (Recorder Host) → Progress Host
  | .halted after => .over .halt after
  | .failed thrown after => .over (.fail thrown) after
  | .underway after => .over .timeout after

/-- With enough turns, the loop with a limit does what the run of the machine does within the steps
that are left. -/
theorem stepsWithin_eq_atLimit {devices : Devices (Recorder Host)}
    {session : Session (Recorder Host)} {limit remaining turns : Nat}
    (running : session.machine.halted = false)
    (within : session.machine.steps + remaining = limit) (enough : remaining < turns) :
    stepsWithin devices (.ofNat limit) turns session =
      atLimit (stepsUntilEnd devices remaining session) := by
  induction remaining generalizing session turns with
  | zero =>
    obtain ⟨turns, rfl⟩ := Nat.exists_eq_add_of_lt enough
    rw [stepsWithin, Number.lt_ofNat, if_neg (by rw [decide_eq_true_eq]; omega)]
    rfl
  | succ remaining inductionHypothesis =>
    obtain ⟨turns, rfl⟩ := Nat.exists_eq_add_of_lt enough
    rw [stepsWithin, Number.lt_ofNat, if_pos (decide_eq_true (by omega)), stepsUntilEnd]
    cases taken : step devices session with
    | error thrown after => rfl
    | ok flow after =>
      cases flow with
      | halt => rfl
      | proceed =>
        obtain ⟨going, counted⟩ := counted_of_proceed running taken
        exact inductionHypothesis going (by omega) (by omega)

/-- More turns do not change a run that is over. -/
theorem stepsWithin_add {devices : Devices (Recorder Host)} {limit : Number} {turns : Nat}
    {session after : Session (Recorder Host)} {ending : Ending} (more : Nat)
    (finished : stepsWithin devices limit turns session = .over ending after) :
    stepsWithin devices limit (turns + more) session = .over ending after := by
  induction turns generalizing session with
  | zero => cases finished
  | succ turns inductionHypothesis =>
    rw [Nat.add_right_comm, stepsWithin]
    rw [stepsWithin] at finished
    by_cases below : (Number.ofNat session.machine.steps).lt limit = true
    · rw [if_pos below] at finished ⊢
      cases taken : step devices session with
      | error thrown next =>
        rw [taken] at finished
        exact finished
      | ok flow next =>
        rw [taken] at finished
        cases flow with
        | halt => exact finished
        | proceed => exact inductionHypothesis finished
    · rw [if_neg below] at finished ⊢
      exact finished

theorem atLimit_of_over {course : Course (Recorder Host)} (finished : course.isOver = true) :
    atLimit course = unlimited course := by
  cases course with
  | halted | failed => rfl
  | underway => cases finished

theorem isOver_of_concluded {course : Course (Recorder Host)}
    {outcome : Except Thrown (RunRecord × Host)}
    (returned : concluded (unlimited course) = some outcome) : course.isOver = true := by
  cases course with
  | halted | failed => rfl
  | underway => cases returned

variable {callbacks : Callbacks Host} {program : List UInt8} {host : Host}

theorem execute_unlimited (callbacks : Callbacks Host) (turns : Nat) (host : Host)
    (short : program.length ≤ 256) :
    execute callbacks (.ofNat 0) turns program host =
      concluded (unlimited (run callbacks.devices turns (initial program host))) := by
  rw [execute_eq_concluded callbacks _ _ host short, advance, if_pos (by rfl)]

/-- With a limit, what is returned is the run of the machine cut off after as many turns. -/
theorem returns_limited_iff {limit : Nat} (result : RunRecord × Host)
    (short : program.length ≤ 256) (positive : 0 < limit) :
    Returns callbacks (.ofNat limit) program host result ↔
      concluded (atLimit (run callbacks.devices limit (initial program host))) =
        some (.ok result) := by
  have bounded : (Number.ofNat limit).le (.ofNat 0) = false := by
    rw [Number.le_ofNat, decide_eq_false_iff_not]
    omega
  unfold Returns
  simp only [execute_eq_concluded callbacks _ _ host short]
  unfold advance run
  simp only [bounded, Bool.false_eq_true, if_false]
  by_cases loaded : (initial program host).machine.isLoaded = true
  · simp only [if_pos loaded]
    have cut {turns : Nat} (enough : limit < turns) :
        stepsWithin callbacks.devices (.ofNat limit) turns (initial program host) =
          atLimit (stepsUntilEnd callbacks.devices limit (initial program host)) :=
      stepsWithin_eq_atLimit rfl (Nat.zero_add limit) enough
    constructor
    · rintro ⟨turns, returned⟩
      rcases progress : stepsWithin callbacks.devices (.ofNat limit) turns
        (initial program host) with ⟨ending, after⟩ | after
      · have extended := stepsWithin_add (limit + 1) progress
        rw [cut (by omega)] at extended
        rw [extended, ← progress]
        exact returned
      · rw [progress] at returned
        cases returned
    · intro returned
      exact ⟨limit + 1, by rw [cut (by omega)]; exact returned⟩
  · simp only [if_neg loaded]
    exact ⟨fun ⟨_, returned⟩ => returned, fun returned => ⟨0, returned⟩⟩

theorem exists_concluded_atLimit (legible : callbacks.Legible) (program : List UInt8)
    (host : Host) (limit : Nat) :
    ∃ result, concluded (atLimit (run callbacks.devices limit (initial program host))) =
      some (.ok result) := by
  have standard := standard_run callbacks.devices limit (standard_initial program host)
  cases course : run callbacks.devices limit (initial program host) with
  | halted after | underway after =>
    rw [course] at standard
    exact exists_concluded standard trivial
  | failed thrown after =>
    have ended : advance callbacks (.ofNat 0) limit (initial program host) =
        .over (.fail thrown) after := by
      rw [advance, if_pos (by rfl), course]
      rfl
    rw [course] at standard
    exact exists_concluded standard (legible_of_over legible ended)

end Runner

/-! ### The last step -/

/-- A failing step counts when its instruction was decoded, as long as the observer lets everything
pass. -/
theorem counted_of_error {devices : Devices Host} {session after : Session Host} {thrown : Thrown}
    (calm : ∀ machine address host, ∃ last, devices.inform machine address host = .ok () last)
    (failed : step devices session = .error thrown after) :
    after.machine.steps =
      session.machine.steps + after.machine.fetched.isOk.toNat := by
  rcases machine_of_step_error failed with ⟨stopped, machine⟩ | ⟨address, passed, -, machine⟩
  · rw [machine, Machine.fetched_stopped]
    cases fetched : session.machine.fetched with
    | error fault => rfl
    | ok found =>
      obtain ⟨last, informed⟩ := calm session.machine found.1 session.host
      exact absurd ⟨found.1, found.2, last, fetched, informed⟩ stopped
  · obtain ⟨place, opcode, host, fetched, -⟩ := passed
    rw [machine, Machine.fetched_stopped, Machine.fetched_counted, fetched]
    rfl

/-- Whether a run ended with an instruction that was decoded. -/
def RunRecord.decoded (record : RunRecord) : Bool :=
  record.fault.all Report.decoded

namespace Runner

/-- The last step of a run counts exactly when the result shows a decoded instruction. -/
theorem steps_of_last_step {callbacks : Callbacks Host} {middle : Session (Recorder Host)}
    {result : RunRecord × Host} (calm : callbacks.Calm) (running : middle.machine.halted = false)
    (returned : concluded (unlimited (stepsUntilEnd callbacks.devices 1 middle)) =
      some (.ok result)) :
    result.1.steps = middle.machine.steps + result.1.decoded.toNat := by
  rw [stepsUntilEnd] at returned
  cases taken : step callbacks.devices middle with
  | error thrown after =>
    rw [taken] at returned
    obtain ⟨fault, rfl, report, rfl, described⟩ := eq_leave_of_concluded returned
    have decoded := Report.decoded_of_describe described
    have counted := counted_of_error (Callbacks.inform_of_calm calm) taken
    rw [← decoded] at counted
    exact counted
  | ok flow after =>
    rw [taken] at returned
    cases flow with
    | proceed => cases returned
    | halt =>
      obtain ⟨fault, rfl, rfl⟩ := eq_leave_of_concluded returned
      exact counted_of_halt running taken

/-! ### Limited and unlimited runs -/

variable {callbacks : Callbacks Host} {program : List UInt8} {host : Host}
  {result : RunRecord × Host}

/-- A result that reports a timeout after as many steps as the limit, and nothing that failed. All
else in it is found in the session at which the unlimited run stands after as many turns. -/
structure ShowsTimeout (limit : Nat) (session : Session (Recorder Host))
    (result : RunRecord × Host) : Prop where
  steps : result.1.steps = limit ∧ session.machine.steps = limit
  reason : result.1.reason = .timeout
  message : result.1.message = none
  fault : result.1.fault = none
  output : result.1.output = session.host.output
  registers : result.1.registers = session.machine.registers
  memory : result.1.memory = session.machine.memory
  checksum : result.1.checksum = Checksum.ofBytes session.machine.memory.toList
  host : result.2 = session.host.host

def TimedOut (callbacks : Callbacks Host) (program : List UInt8) (host : Host) (limit : Nat)
    (result : RunRecord × Host) : Prop :=
  ∃ first session, start program host = .ok first ∧
    run callbacks.devices limit first = .underway session ∧ ShowsTimeout limit session result

/-- Where an unlimited run that returns has its last step: limits past it change nothing, and at the
others the run is still underway. Only a run without a program has no step at all. -/
structure EndsAfter (callbacks : Callbacks Host) (program : List UInt8) (host : Host)
    (result : RunRecord × Host) (earlier : Nat) : Prop where
  steps : result.1.steps = earlier + result.1.decoded.toNat ∨ earlier = 0 ∧ result.1.steps = 0
  past : ∀ limit, earlier < limit → Returns callbacks (.ofNat limit) program host result
  underway : ∀ limit, 0 < limit → limit ≤ earlier →
    ∃ session, run callbacks.devices limit (initial program host) = .underway session

theorem exists_endsAfter (calm : callbacks.Calm) (short : program.length ≤ 256)
    (returned : Returns callbacks (.ofNat 0) program host result) :
    ∃ earlier, EndsAfter callbacks program host result earlier := by
  obtain ⟨turns, ended⟩ := returned
  rw [execute_unlimited callbacks turns host short] at ended
  by_cases loaded : (initial program host).machine.isLoaded = true
  · have sequence (turns : Nat) := run_of_loaded callbacks.devices turns loaded
    rw [sequence] at ended
    have finished := isOver_of_concluded ended
    obtain ⟨earlier, middle, -, underway, last⟩ := exists_last_step finished
    rw [← last] at ended finished
    obtain ⟨running, counted⟩ := counted_of_underway rfl underway
    have steps := steps_of_last_step calm running ended
    rw [counted] at steps
    refine ⟨earlier, Or.inl ?_, fun limit past => ?_, fun limit _ within => ?_⟩
    · rw [steps]
      exact congrArg (· + _) (Nat.zero_add earlier)
    · rw [returns_limited_iff result short (Nat.zero_lt_of_lt past), sequence,
        stepsUntilEnd_of_last_step underway finished past, atLimit_of_over finished]
      exact ended
    · rw [sequence]
      exact underway_of_le underway within
  · have still (turns : Nat) := run_of_not_loaded callbacks.devices turns loaded
    rw [still] at ended
    refine ⟨0, Or.inr ⟨rfl, ?_⟩, fun limit past => ?_, fun limit positive none => ?_⟩
    · obtain ⟨fault, rfl, -⟩ := eq_leave_of_concluded ended
      rfl
    · rw [returns_limited_iff result short past, still]
      exact ended
    · exact absurd none (Nat.not_le.mpr positive)

/-- A limit at which the run is underway is a timeout. -/
theorem timedOut_of_underway {limit : Nat} {session : Session (Recorder Host)}
    (short : program.length ≤ 256) (positive : 0 < limit)
    (underway : run callbacks.devices limit (initial program host) = .underway session) :
    Returns callbacks (.ofNat limit) program host
        (leave session .timeout none, session.host.host) ∧
      TimedOut callbacks program host limit
        (leave session .timeout none, session.host.host) := by
  have steps := steps_of_underway underway
  refine ⟨(returns_limited_iff _ short positive).mpr ?_,
    _, session, start_of_short host short, underway, ?_⟩
  · rw [underway]
    rfl
  · exact {
      steps := ⟨steps, steps⟩
      reason := rfl
      message := rfl
      fault := rfl
      output := rfl
      registers := rfl
      memory := rfl
      checksum := rfl
      host := rfl }

/-- The result with a limit holds the output of the run as it stands there. -/
theorem output_of_returns_limited {limit : Nat} (short : program.length ≤ 256)
    (positive : 0 < limit) (returned : Returns callbacks (.ofNat limit) program host result) :
    result.1.output =
      (run callbacks.devices limit (initial program host)).session.host.output := by
  rw [returns_limited_iff result short positive] at returned
  cases course : run callbacks.devices limit (initial program host) with
  | halted after | failed thrown after | underway after =>
    rw [course] at returned
    obtain ⟨fault, rfl, -⟩ := eq_leave_of_concluded returned
    rfl

theorem output_run (callbacks : Callbacks Host) {turns more : Nat} (fewer : turns ≤ more)
    (first : Session (Recorder Host)) :
    (run callbacks.devices turns first).session.host.output.toList <+:
      (run callbacks.devices more first).session.host.output.toList := by
  by_cases loaded : first.machine.isLoaded = true
  · rw [run_of_loaded _ _ loaded, run_of_loaded _ _ loaded]
    cases course : stepsUntilEnd callbacks.devices turns first with
    | underway middle =>
      obtain ⟨rest, rfl⟩ := Nat.exists_eq_add_of_le fewer
      rw [stepsUntilEnd_add rest course]
      exact output_stepsUntilEnd callbacks rest middle
    | halted after | failed thrown after =>
      have same := stepsUntilEnd_of_over (by rw [course]; rfl) fewer
      simp only [same, course, List.prefix_rfl]
  · simp only [run_of_not_loaded _ _ loaded, List.prefix_rfl]

/-- What it means for runs with a limit to agree with the unlimited run. -/
structure LimitAgrees (callbacks : Callbacks Host) (program : List UInt8) (host : Host)
    (limit : Nat) : Prop where
  /-- With a limit there is one result, and no other. -/
  returns : ∃ result, Returns callbacks (.ofNat limit) program host result ∧
    ∀ other, Returns callbacks (.ofNat limit) program host other → other = result
  /-- A run that ends with fewer steps returns the same with the limit. -/
  above : ∀ result, Returns callbacks (.ofNat 0) program host result →
    result.1.steps < limit → Returns callbacks (.ofNat limit) program host result
  /-- So does one that ends with as many, if its last instruction was decoded. -/
  reached : ∀ result, Returns callbacks (.ofNat 0) program host result →
    result.1.steps = limit → result.1.decoded = true →
      Returns callbacks (.ofNat limit) program host result
  /-- Without a decoded instruction the last step comes too late. -/
  missed : ∀ result, Returns callbacks (.ofNat 0) program host result →
    result.1.steps = limit → result.1.decoded = false →
      ∃ cut, Returns callbacks (.ofNat limit) program host cut ∧
        TimedOut callbacks program host limit cut
  below : ∀ result, Returns callbacks (.ofNat 0) program host result →
    limit < result.1.steps →
      ∃ cut, Returns callbacks (.ofNat limit) program host cut ∧
        TimedOut callbacks program host limit cut
  endless : (∀ result, ¬ Returns callbacks (.ofNat 0) program host result) →
    ∃ cut, Returns callbacks (.ofNat limit) program host cut ∧
      TimedOut callbacks program host limit cut
  /-- Every timeout shows the unlimited run at the limit. -/
  timeout : ∀ cut, Returns callbacks (.ofNat limit) program host cut →
    cut.1.reason = .timeout → TimedOut callbacks program host limit cut
  /-- With a greater limit the output is at most longer. -/
  growing : ∀ later cut further, limit ≤ later →
    Returns callbacks (.ofNat limit) program host cut →
    Returns callbacks (.ofNat later) program host further →
      cut.1.output.toList <+: further.1.output.toList

/-- Limited runs of a program that fits agree with the unlimited one, whoever watches, as long as
the watcher of trace lines does not fail and what the other raises can be put into words. A run
without callbacks has no such watchers. -/
theorem limit_agrees (callbacks : Callbacks Host) (calm : callbacks.Calm)
    (legible : callbacks.Legible) (program : List UInt8) (short : program.length ≤ 256)
    (host : Host) (limit : Nat) (positive : 0 < limit) :
    LimitAgrees callbacks program host limit := by
  have cutOff {result : RunRecord × Host} {earlier : Nat}
      (ends : EndsAfter callbacks program host result earlier) (within : limit ≤ earlier) :
      ∃ cut, Returns callbacks (.ofNat limit) program host cut ∧
        TimedOut callbacks program host limit cut := by
    obtain ⟨session, underway⟩ := ends.underway limit positive within
    exact ⟨_, timedOut_of_underway short positive underway⟩
  constructor
  case returns =>
    obtain ⟨result, returned⟩ := exists_concluded_atLimit legible program host limit
    refine ⟨result, (returns_limited_iff result short positive).mpr returned, fun other again => ?_⟩
    rw [returns_limited_iff other short positive, returned] at again
    cases again
    rfl
  case above =>
    intro result returned fewer
    obtain ⟨earlier, ends⟩ := exists_endsAfter calm short returned
    refine ends.past limit ?_
    rcases ends.steps with steps | steps <;> omega
  case reached =>
    intro result returned same decoded
    obtain ⟨earlier, ends⟩ := exists_endsAfter calm short returned
    refine ends.past limit ?_
    rcases ends.steps with steps | steps
    · rw [decoded, Bool.toNat_true] at steps
      omega
    · omega
  case missed =>
    intro result returned same undecoded
    obtain ⟨earlier, ends⟩ := exists_endsAfter calm short returned
    refine cutOff ends ?_
    rcases ends.steps with steps | steps
    · rw [undecoded, Bool.toNat_false] at steps
      omega
    · omega
  case below =>
    intro result returned more
    obtain ⟨earlier, ends⟩ := exists_endsAfter calm short returned
    refine cutOff ends ?_
    have last := Bool.toNat_le result.1.decoded
    rcases ends.steps with steps | steps <;> omega
  case endless =>
    intro endless
    cases course : run callbacks.devices limit (initial program host) with
    | underway session => exact ⟨_, timedOut_of_underway short positive course⟩
    | halted after | failed thrown after =>
      obtain ⟨result, returned⟩ := exists_concluded_atLimit legible program host limit
      rw [atLimit_of_over (by rw [course]; rfl), ← execute_unlimited callbacks limit host short]
        at returned
      exact absurd ⟨limit, returned⟩ (endless result)
  case timeout =>
    intro cut returned late
    rw [returns_limited_iff _ short positive] at returned
    cases course : run callbacks.devices limit (initial program host) with
    | underway session =>
      rw [course] at returned
      cases returned
      exact (timedOut_of_underway short positive course).2
    | halted after | failed thrown after =>
      rw [course] at returned
      obtain ⟨fault, rfl, -⟩ := eq_leave_of_concluded returned
      cases late
  case growing =>
    intro later cut further more returned again
    rw [output_of_returns_limited short positive returned,
      output_of_returns_limited short (Nat.lt_of_lt_of_le positive more) again]
    exact output_run callbacks more _

/-- A program that prints a register and then runs into a byte that is no opcode. -/
def spoiled : List UInt8 :=
  [0x82, 0, 8, 0x47, 0]

/-- Two instructions count before the unknown opcode. With a limit of two it is never reached, and
the result shows the machine behind the print. -/
theorem spoiled_times_out :
    ∃ cut, Returns ⟨none, none⟩ (.ofNat 2) spoiled () cut ∧
      TimedOut ⟨none, none⟩ spoiled () 2 cut ∧
      cut.1.steps = 2 ∧ cut.1.reason = .timeout ∧ cut.1.message = none ∧ cut.1.fault = none ∧
      cut.1.output = #["8"] ∧ cut.1.registers.toList = [8, 0, 0, 0, 0, 0, 0, 255] ∧
      cut.1.memory.toList = spoiled ++ List.replicate 251 0 ∧
      cut.1.checksum = Checksum.ofBytes (spoiled ++ List.replicate 251 0) := by
  have facts : ((execute ⟨none, none⟩ (.ofNat 2) 3 spoiled ()).any fun outcome =>
      outcome.toOption.any fun result => result.1.reason = .timeout ∧
        result.1.output = #["8"] ∧ result.1.registers.toList = [8, 0, 0, 0, 0, 0, 0, 255] ∧
        result.1.memory.toList = spoiled ++ List.replicate 251 0) = true := by
    decide +kernel
  obtain ⟨outcome, executed, known⟩ := (Option.any_eq_true _ _).mp facts
  cases outcome with
  | error thrown => cases known
  | ok cut =>
    obtain ⟨late, output, registers, memory⟩ := of_decide_eq_true known
    have timedOut := (limit_agrees ⟨none, none⟩ Callbacks.calm_silent Callbacks.legible_silent
      spoiled (by decide) () 2 (by decide)).timeout cut ⟨3, executed⟩ late
    obtain ⟨first, session, started, underway, shown⟩ := timedOut
    refine ⟨cut, ⟨3, executed⟩, ⟨first, session, started, underway, shown⟩, shown.steps.1, late,
      shown.message, shown.fault, output, registers, memory, ?_⟩
    rw [shown.checksum, ← shown.memory, memory]

end Runner

end EightBit
