/-
The lines of a run. A step hands at most two lines to the host: the trace line of its instruction,
once that is fetched, and behind it the line that the instruction prints. The lines of a run are
those of its steps, one step after the other, and the run has counted a step for each trace line
among them. A step whose instruction cannot be fetched has no line and is not counted; it can only
be the last one.
-/

import EightBit.Proofs.Listeners

namespace EightBit

variable {Host : Type}

/-! ### Handing lines to a host -/

namespace Line

def trace? : Line → Option String
  | .trace text => some text
  | .printed _ => none

def printed? : Line → Option String
  | .trace _ => none
  | .printed text => some text

/-- A printed value as a decimal line. -/
def ofValue (value : UInt8) : Line :=
  .printed value.toNat.repr

end Line

namespace Callbacks

/-- Hands lines to the host, one after the other. -/
def deliver (callbacks : Callbacks Host) (lines : List Line) (host : Host) : Host :=
  lines.foldl (fun host line => stateLeft (callbacks.tell line host)) host

/-- What becomes of a recorder when lines are handed to its host: printed lines are also kept. -/
def record (callbacks : Callbacks Host) (lines : List Line) (recorder : Recorder Host) :
    Recorder Host where
  output := recorder.output ++ (lines.filterMap Line.printed?).toArray
  host := callbacks.deliver lines recorder.host

theorem record_nil (callbacks : Callbacks Host) (recorder : Recorder Host) :
    callbacks.record [] recorder = recorder := by
  unfold record
  simp only [List.filterMap_nil, Array.append_empty]
  rfl

theorem record_append (callbacks : Callbacks Host) (first second : List Line)
    (recorder : Recorder Host) :
    callbacks.record (first ++ second) recorder =
      callbacks.record second (callbacks.record first recorder) := by
  unfold record deliver
  simp only [List.filterMap_append, List.foldl_append, Array.append_assoc, List.append_toArray]

theorem stateLeft_onHost (action : EStateM Thrown Host Unit) (recorder : Recorder Host) :
    stateLeft (Recorder.onHost action recorder) =
      { recorder with host := stateLeft (action recorder.host) } := by
  unfold Recorder.onHost
  cases action recorder.host <;> rfl

variable {callbacks : Callbacks Host} {recorder : Recorder Host}
  {result : EStateM.Result Thrown (Recorder Host) Unit}

theorem record_of_inform {machine : Machine} {address : Nat}
    (informed : callbacks.devices.inform machine address recorder = result) :
    stateLeft result = callbacks.record [.trace (machine.lineAt address)] recorder := by
  rw [← informed, inform_eq, stateLeft_onHost]
  unfold record
  simp only [List.filterMap_cons, List.filterMap_nil, Line.printed?, Array.append_empty]
  rfl

theorem record_of_print {value : Option UInt8}
    (printed : callbacks.devices.print value recorder = result) :
    stateLeft result = callbacks.record (value.toList.map Line.ofValue) recorder := by
  rw [← printed]
  cases value with
  | none => exact (record_nil callbacks recorder).symm
  | some byte =>
    rw [print_eq, stateLeft_onHost]
    unfold record
    simp only [Option.toList_some, List.map_cons, List.map_nil, Line.ofValue, List.filterMap_cons,
      List.filterMap_nil, Line.printed?, ← Array.push_eq_append]
    rfl

end Callbacks

/-! ### The lines of a step -/

/-- The lines of the step that a machine takes next. Nothing is printed when a check fails. -/
def Machine.lines (machine : Machine) : List Line :=
  match machine.fetched with
  | .error _ => []
  | .ok (address, opcode) =>
    .trace (machine.lineAt address) ::
      match firstFault (opcode.checks machine.toStorage address) with
      | some _ => []
      | none => (opcode.printed machine.toStorage address).toList.map Line.ofValue

theorem Machine.lines_of_unfetched {machine : Machine} {fault : Fault}
    (fetched : machine.fetched = .error fault) : machine.lines = [] := by
  unfold lines
  rw [fetched]

/-- An instruction that is fetched has one trace line. -/
theorem Machine.traces_lines {machine : Machine} {address : Nat} {opcode : Opcode}
    (fetched : machine.fetched = .ok (address, opcode)) :
    machine.lines.filterMap Line.trace? = [machine.lineAt address] := by
  unfold lines
  simp only [fetched]
  cases firstFault (opcode.checks machine.toStorage address) with
  | some fault => rfl
  | none => cases opcode <;> rfl

/-- Only a print instruction prints, and its trace line is all that comes before. -/
theorem Machine.lines_eq_append {machine : Machine} {before after : List Line} {text : String}
    (split : machine.lines = before ++ .printed text :: after) :
    ∃ address, machine.fetched = .ok (address, .prn) ∧
      before = [.trace (machine.lineAt address)] ∧
      text = (machine.named address 1).toNat.repr := by
  unfold lines at split
  cases fetched : machine.fetched with
  | error fault =>
    rw [fetched] at split
    cases before <;> cases split
  | ok found =>
    obtain ⟨address, opcode⟩ := found
    simp only [fetched] at split
    obtain _ | ⟨line, rest⟩ := before
    · cases split
    · obtain ⟨rfl, behind⟩ := List.cons_eq_cons.mp split
      refine ⟨address, ?_⟩
      cases failed : firstFault (opcode.checks machine.toStorage address) with
      | some fault =>
        rw [failed] at behind
        cases rest <;> cases behind
      | none =>
        rw [failed] at behind
        cases opcode with
        | prn =>
          obtain _ | ⟨line, more⟩ := rest
          · cases behind
            exact ⟨rfl, rfl, rfl⟩
          · obtain ⟨-, nothing⟩ := List.cons_eq_cons.mp behind
            cases more <;> cases nothing
        | _ => cases rest <;> cases behind

/-- A step hands its lines to the host, and counts as many steps as there are trace lines among
them. -/
theorem step_told {callbacks : Callbacks Host} (calm : callbacks.Calm)
    {session : Session (Recorder Host)} (running : session.machine.halted = false) :
    (stateLeft (step callbacks.devices session)).host =
        callbacks.record session.machine.lines session.host ∧
      (stateLeft (step callbacks.devices session)).machine.steps =
        session.machine.steps + (session.machine.lines.filterMap Line.trace?).length := by
  have outcome := stepped callbacks.devices session
  generalize step callbacks.devices session = result at outcome
  unfold Machine.lines
  cases outcome with
  | idle halted =>
    rw [running] at halted
    cases halted
  | unfetched _ fetched =>
    rw [fetched]
    exact ⟨(Callbacks.record_nil callbacks session.host).symm, rfl⟩
  | unobserved _ _ informed =>
    obtain ⟨after, passed⟩ := Callbacks.inform_of_calm calm session.machine _ session.host
    rw [passed] at informed
    cases informed
  | unchecked _ fetched informed failed =>
    simp only [fetched, failed]
    exact ⟨Callbacks.record_of_inform informed, rfl⟩
  | @unprinted address opcode _ _ _ _ fetched informed passed printed
  | @completed address opcode _ _ _ fetched informed passed printed =>
    simp only [fetched, passed]
    refine ⟨?_, ?_⟩
    · rw [← List.singleton_append, Callbacks.record_append, ← Callbacks.record_of_inform informed]
      exact Callbacks.record_of_print printed
    · cases opcode <;> rfl

/-! ### The lines of a run -/

namespace Runner

/-- The lines of the first steps of a run. -/
def transcript (callbacks : Callbacks Host) (program : List UInt8) (host : Host)
    (count : Nat) : List Line :=
  (List.range count).flatMap fun turns => (machineAfter callbacks program host turns).lines

variable {callbacks : Callbacks Host} {program : List UInt8} {host : Host}

theorem transcript_succ (callbacks : Callbacks Host) (program : List UInt8) (host : Host)
    (count : Nat) :
    transcript callbacks program host (count + 1) =
      transcript callbacks program host count ++
        (machineAfter callbacks program host count).lines := by
  unfold transcript
  rw [List.range_succ, List.flatMap_append, List.flatMap_singleton]

/-- A run that is underway has handed over the lines of its steps. -/
theorem told_of_underway (calm : callbacks.Calm) {turns : Nat} {session : Session (Recorder Host)}
    (underway : stepsUntilEnd callbacks.devices turns (initial program host) = .underway session)
    (loaded : (initial program host).machine.isLoaded = true) :
    session.host = callbacks.record (transcript callbacks program host turns)
      (initial program host).host := by
  induction turns generalizing session with
  | zero =>
    cases underway
    exact (Callbacks.record_nil callbacks _).symm
  | succ turns inductionHypothesis =>
    obtain ⟨middle, before, taken⟩ := exists_step_of_underway underway
    obtain ⟨running, -⟩ := counted_of_underway rfl before
    have told := (step_told calm running).1
    rw [taken, inductionHypothesis before] at told
    rw [transcript_succ, Callbacks.record_append,
      machineAfter_of_underway ((run_of_loaded _ _ loaded).trans before)]
    exact told

/-- The run is underway at a turn, and an instruction is fetched there. -/
def FetchesAt (callbacks : Callbacks Host) (program : List UInt8) (host : Host)
    (turns : Nat) : Prop :=
  ∃ session address opcode,
    run callbacks.devices turns (initial program host) = .underway session ∧
      session.machine.fetched = .ok (address, opcode)

/-- What has been told of a run once it is over: the lines of all the steps it has counted, at each
of which an instruction was fetched. -/
structure Told (callbacks : Callbacks Host) (program : List UInt8) (host : Host)
    (after : Session (Recorder Host)) : Prop where
  recorder : after.host =
    callbacks.record (transcript callbacks program host after.machine.steps)
      (initial program host).host
  fetched : ∀ turns < after.machine.steps, FetchesAt callbacks program host turns

theorem fetchesAt_of_underway {turns fewer : Nat} {last : Session (Recorder Host)}
    (loaded : (initial program host).machine.isLoaded = true)
    (underway : stepsUntilEnd callbacks.devices turns (initial program host) = .underway last)
    (earlier : fewer < turns) : FetchesAt callbacks program host fewer := by
  obtain ⟨next, reached⟩ := underway_of_le underway earlier
  obtain ⟨session, before, taken⟩ := exists_step_of_underway reached
  obtain ⟨running, -⟩ := counted_of_underway rfl before
  obtain ⟨address, opcode, fetched, -⟩ := completed_of_step_ok running taken
  exact ⟨session, address, opcode, (run_of_loaded _ _ loaded).trans before, fetched⟩

/-- Behind a row of steps that went on, one step more is told of like the others. -/
theorem told_of_leftBy (calm : callbacks.Calm) {earlier : Nat}
    {reached : Session (Recorder Host)} (loaded : (initial program host).machine.isLoaded = true)
    (underway : stepsUntilEnd callbacks.devices earlier (initial program host) =
      .underway reached) :
    Told callbacks program host (stateLeft (step callbacks.devices reached)) := by
  have told := told_of_underway calm underway loaded
  have before (fewer : Nat) (less : fewer < earlier) : FetchesAt callbacks program host fewer :=
    fetchesAt_of_underway loaded underway less
  obtain ⟨running, counted⟩ := counted_of_underway rfl underway
  have steps : reached.machine.steps = earlier := counted.trans (Nat.zero_add earlier)
  have course := (run_of_loaded callbacks.devices earlier loaded).trans underway
  obtain ⟨handed, total⟩ := step_told calm running
  cases fetched : reached.machine.fetched with
  | error fault =>
    -- the step has no lines and is not counted
    rw [Machine.lines_of_unfetched fetched, Callbacks.record_nil] at handed
    rw [Machine.lines_of_unfetched fetched, List.filterMap_nil, List.length_nil, Nat.add_zero,
      steps] at total
    refine ⟨?_, fun fewer less => before fewer (total ▸ less)⟩
    rw [handed, total]
    exact told
  | ok found =>
    rw [Machine.traces_lines fetched, steps, List.length_singleton] at total
    refine ⟨?_, fun fewer less => ?_⟩
    · rw [handed, total, told, transcript_succ, Callbacks.record_append,
        machineAfter_of_underway course]
    · rw [total] at less
      rcases Nat.lt_succ_iff_lt_or_eq.mp less with less | rfl
      · exact before fewer less
      · exact ⟨reached, found.1, found.2, course, fetched⟩

theorem told_of_over (calm : callbacks.Calm) {limit : Number} {turns : Nat}
    {after : Session (Recorder Host)} {ending : Ending}
    (ended : advance callbacks limit turns (initial program host) = .over ending after) :
    Told callbacks program host after := by
  by_cases loaded : (initial program host).machine.isLoaded = true
  · obtain ⟨earlier, reached, underway, last⟩ := exists_lastStep_of_advance loaded ended
    have told := told_of_leftBy calm loaded underway
    cases last with
    | cutOff =>
      obtain ⟨-, counted⟩ := counted_of_underway rfl underway
      have steps : after.machine.steps = earlier := counted.trans (Nat.zero_add earlier)
      refine ⟨?_, fun fewer less => fetchesAt_of_underway loaded underway (steps ▸ less)⟩
      rw [steps]
      exact told_of_underway calm underway loaded
    | halted taken | failed taken =>
      rw [taken] at told
      exact told
  · have handed : after.host = (initial program host).host := by
      rcases unmoved_of_advance loaded ended with rfl | rfl <;> rfl
    have steps : after.machine.steps = 0 := by
      rcases unmoved_of_advance loaded ended with rfl | rfl <;> rfl
    refine ⟨?_, fun fewer less => absurd less (steps ▸ Nat.not_lt_zero fewer)⟩
    rw [handed, steps]
    exact (Callbacks.record_nil callbacks _).symm

/-! ### What a transcript shows -/

theorem length_traces {count : Nat}
    (fetched : ∀ turns < count, FetchesAt callbacks program host turns) :
    ((transcript callbacks program host count).filterMap Line.trace?).length = count := by
  induction count with
  | zero => rfl
  | succ count inductionHypothesis =>
    obtain ⟨session, address, opcode, underway, found⟩ := fetched count (Nat.lt_succ_self count)
    rw [transcript_succ, List.filterMap_append, List.length_append,
      inductionHypothesis fun turns less => fetched turns (Nat.lt_succ_of_lt less),
      machineAfter_of_underway underway, Machine.traces_lines found, List.length_singleton]

/-- The trace lines are those of the machine at each turn. -/
theorem getElem?_traces {count turns : Nat} {session : Session (Recorder Host)} {address : Nat}
    {opcode : Opcode} (fetched : ∀ turns < count, FetchesAt callbacks program host turns)
    (less : turns < count)
    (underway : run callbacks.devices turns (initial program host) = .underway session)
    (found : session.machine.fetched = .ok (address, opcode)) :
    ((transcript callbacks program host count).filterMap Line.trace?)[turns]? =
      some (session.machine.lineAt address) := by
  induction count with
  | zero => exact absurd less (Nat.not_lt_zero turns)
  | succ count inductionHypothesis =>
    have before : ∀ turns < count, FetchesAt callbacks program host turns :=
      fun turns less => fetched turns (Nat.lt_succ_of_lt less)
    have length := length_traces before
    rw [transcript_succ, List.filterMap_append]
    rcases Nat.lt_succ_iff_lt_or_eq.mp less with less | rfl
    · rw [List.getElem?_append_left (by omega)]
      exact inductionHypothesis before less
    · rw [List.getElem?_append_right (by omega), length, Nat.sub_self,
        machineAfter_of_underway underway, Machine.traces_lines found]
      rfl

/-- What is printed stands right behind the trace line of the instruction that prints it. -/
theorem exists_print_of_transcript {count : Nat} {before after : List Line} {text : String}
    (split : transcript callbacks program host count = before ++ .printed text :: after) :
    ∃ turns < count, ∃ address,
      (machineAfter callbacks program host turns).fetched = .ok (address, .prn) ∧
      before = transcript callbacks program host turns ++
        [.trace ((machineAfter callbacks program host turns).lineAt address)] ∧
      text = ((machineAfter callbacks program host turns).named address 1).toNat.repr := by
  induction count generalizing after with
  | zero => cases before <;> cases split
  | succ count inductionHypothesis =>
    rw [transcript_succ] at split
    rcases List.append_eq_append_iff.mp split with ⟨lead, rfl, own⟩ | ⟨rest, earlier, own⟩
    · obtain ⟨address, fetched, rfl, rfl⟩ := Machine.lines_eq_append own
      exact ⟨count, Nat.lt_succ_self count, address, fetched, rfl, rfl⟩
    · obtain _ | ⟨line, rest⟩ := rest
      · -- a step does not begin with a printed line
        have first : (machineAfter callbacks program host count).lines =
            [] ++ .printed text :: after := own.symm
        obtain ⟨address, -, nothing, -⟩ := Machine.lines_eq_append first
        cases nothing
      · obtain ⟨rfl, -⟩ := List.cons_eq_cons.mp own
        obtain ⟨turns, less, found⟩ := inductionHypothesis earlier
        exact ⟨turns, Nat.lt_succ_of_lt less, found⟩

end Runner

end EightBit
