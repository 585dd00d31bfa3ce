/-
Commands with and without a trace. The option for a trace touches nothing but the trace, so two
commands that differ in it alone are refused with the same words, or open the same program and run
it with listeners that differ in trace lines only. A trace line can be told by how it begins, as no
other line of a command begins like it. Deleting the trace lines of the one command therefore leaves
what the other writes.
-/

import EightBit.CommandLine.Run
import EightBit.Proofs.Listeners

namespace EightBit

/-! ### How lines begin -/

namespace Text

theorem startsWith_append (lead rest : String) : startsWith lead (lead ++ rest) = true := by
  unfold startsWith
  rw [String.toList_append, List.isPrefixOf_iff_prefix]
  exact List.prefix_append _ _

/-- Of two beginnings neither of which begins with the other, a text has at most one. -/
theorem startsWith_append_of_apart {lead head : String} (rest : String)
    (apart : ¬ (lead.toList <+: head.toList ∨ head.toList <+: lead.toList)) :
    startsWith lead (head ++ rest) = false := by
  rw [Bool.eq_false_iff]
  unfold startsWith
  rw [String.toList_append, ne_eq, List.isPrefixOf_iff_prefix]
  intro begins
  exact apart (List.prefix_or_prefix_of_prefix begins (List.prefix_append _ _))

end Text

/-- Whether an event is a line of the tracer. -/
def Event.isTraceLine (event : Event) : Bool :=
  event.stream = .err && Text.startsWith "TRACE: " event.text

theorem Machine.isTraceLine_lineAt (machine : Machine) (address : Nat) :
    Event.isTraceLine ⟨.err, machine.lineAt address⟩ = true := by
  unfold lineAt traceLine Listing.traceLine Event.isTraceLine
  simp only [String.append_assoc, Text.startsWith_append, decide_true, Bool.and_self]

theorem Event.isTraceLine_of_apart {head : String} (stream : Stream) (rest : String)
    (apart : ¬ ("TRACE: ".toList <+: head.toList ∨ head.toList <+: "TRACE: ".toList)) :
    Event.isTraceLine ⟨stream, head ++ rest⟩ = false := by
  unfold isTraceLine
  rw [Text.startsWith_append_of_apart rest apart, Bool.and_false]

namespace Thrown

/-- The kinds that failures have. -/
def kinds : List String :=
  ["VMError", "AddressError", "RegisterError", "UnknownOpcodeError", "FatalError", "LoadError",
    "RangeError", "TypeError", "Error"]

theorem kind_mem_kinds (thrown : Thrown) : thrown.kind ∈ kinds := by
  cases thrown with
  | fault cause =>
    cases cause with
    | file error => cases error <;> simp [kind, Fault.kind, Files.Error.kind, kinds]
    | _ => simp [kind, Fault.kind, kinds]
  | error message | value text => simp [kind, kinds]

/-- No kind of failure is called like a trace. -/
theorem kind_apart (thrown : Thrown) :
    ¬ ("TRACE: ".toList <+: thrown.kind.toList ∨ thrown.kind.toList <+: "TRACE: ".toList) := by
  have apart : ∀ kind ∈ kinds,
      ¬ ("TRACE: ".toList <+: kind.toList ∨ kind.toList <+: "TRACE: ".toList) := by decide
  exact apart thrown.kind thrown.kind_mem_kinds

end Thrown

namespace Report

/-- The text of a report begins with the kind of what was raised. -/
theorem exists_text_eq (report : Report) : ∃ rest, report.text = report.kind ++ rest := by
  unfold text
  rw [String.append_assoc, String.intercalate_cons_append]
  exact ⟨_, rfl⟩

theorem isTraceLine_text {thrown : Thrown} {report : Report} (raised : report.kind = thrown.kind) :
    Event.isTraceLine ⟨.err, report.text⟩ = false := by
  obtain ⟨rest, text⟩ := report.exists_text_eq
  rw [text, raised]
  exact Event.isTraceLine_of_apart .err rest thrown.kind_apart

end Report

/-! ### Options -/

namespace Options

/-- The options with the trace switched on or off. -/
def traced (options : Options) (on : Bool) : Options :=
  { options with trace := on }

theorem take_trace (options : Options) : options.take "--trace" = .ok (options.traced true) :=
  rfl

/-- Every other option leaves the trace alone and does not depend on it. -/
theorem take_traced (options : Options) (on : Bool) {argument : String}
    (other : argument ≠ "--trace") :
    (options.traced on).take argument = (options.take argument).map (·.traced on) := by
  unfold take
  rw [if_neg other, if_neg other]
  cases Text.after? "--max-steps=" argument with
  | some text =>
    simp only
    cases stepLimit? text <;> rfl
  | none =>
    simp only
    cases Text.after? "--dump-png=" argument with
    | some path => rfl
    | none =>
      by_cases option : Text.startsWith "--" argument = true
      · simp only [if_pos option]
        rfl
      · simp only [if_neg option]
        obtain ⟨program, trace, limit, image⟩ := options
        cases program <;> rfl

theorem takeAll_traced (options : Options) (on : Bool) {arguments : List String}
    (others : "--trace" ∉ arguments) :
    (options.traced on).takeAll arguments = (options.takeAll arguments).map (·.traced on) := by
  induction arguments generalizing options with
  | nil => rfl
  | cons argument rest inductionHypothesis =>
    rw [List.mem_cons, not_or] at others
    rw [takeAll, takeAll, take_traced options on (Ne.symm others.1)]
    cases options.take argument with
    | error fault => rfl
    | ok taken => exact inductionHypothesis taken others.2

/-- Without the option for it, the trace stays as it was. -/
theorem trace_of_takeAll {options taken : Options} {arguments : List String}
    (others : "--trace" ∉ arguments) (accepted : options.takeAll arguments = .ok taken) :
    taken.trace = options.trace := by
  have same := takeAll_traced options options.trace others
  have unchanged : options.traced options.trace = options := rfl
  rw [unchanged, accepted] at same
  have kept : taken = taken.traced options.trace := Except.ok.inj same
  rw [kept]
  rfl

/-- Taking the option for a trace out of a command changes nothing but the trace. -/
theorem exists_takeAll_eq (options : Options) (arguments : List String) :
    ∃ on, options.takeAll arguments =
      (options.takeAll (arguments.filter (· ≠ "--trace"))).map (·.traced on) := by
  induction arguments generalizing options with
  | nil => exact ⟨options.trace, rfl⟩
  | cons argument rest inductionHypothesis =>
    by_cases trace : argument = "--trace"
    · obtain ⟨on, taken⟩ := inductionHypothesis (options.traced true)
      refine ⟨on, ?_⟩
      rw [trace, takeAll, take_trace, List.filter_cons_of_neg (by decide)]
      simp only [taken]
      rw [takeAll_traced options true (by simp)]
      cases options.takeAll (rest.filter (· ≠ "--trace")) <;> rfl
    · rw [List.filter_cons_of_pos (by simpa using trace), takeAll, takeAll]
      cases options.take argument with
      | error fault => exact ⟨true, rfl⟩
      | ok taken => exact inductionHypothesis taken

end Options

/-! ### Commands -/

/-- What a command did, without the lines of the tracer. -/
def Outcome.withoutTrace (outcome : Outcome) : Outcome :=
  { outcome with events := outcome.events.filter fun event => !event.isTraceLine }

namespace CommandLine

/-- The second log is the first without trace lines. -/
def Untraced (log other : Log) : Prop :=
  other = log.filter fun event => !event.isTraceLine

theorem Untraced.push {log other : Log} {event : Event} (untraced : Untraced log other)
    (line : event.isTraceLine = false) : Untraced (log.push event) (other.push event) := by
  unfold Untraced at *
  rw [Array.filter_push_of_pos (by rw [line]; rfl) (Array.size_push _), ← untraced]

theorem Untraced.push_trace {log other : Log} {event : Event} (untraced : Untraced log other)
    (line : event.isTraceLine = true) : Untraced (log.push event) other := by
  unfold Untraced at *
  rw [Array.filter_push_of_neg (by rw [line]; exact Bool.false_ne_true) (Array.size_push _),
    ← untraced]

theorem untraced_singleton {event : Event} (line : event.isTraceLine = false) :
    Untraced #[event] #[event] := by
  have start : Untraced #[] #[] := rfl
  exact start.push line

/-- With the trace on and off, the listeners of a command differ in trace lines only. -/
theorem callbacks_correspond {options : Options} (on : Bool) (off : options.trace = false) :
    (callbacks (options.traced on)).Correspond (callbacks options) Untraced where
  trace := by
    intro machine address log other untraced
    have silent : (callbacks options).tell (.trace (machine.lineAt address)) other =
        .ok () other := by
      unfold callbacks Callbacks.tell
      rw [off]
      rfl
    rw [silent]
    cases on with
    | false => exact .ok untraced
    | true => exact .ok (untraced.push_trace (machine.isTraceLine_lineAt address))
  printed := by
    intro text log other untraced
    exact .ok (untraced.push rfl)

theorem isTraceLine_refusal (fault : Fault) : (refusal fault).isTraceLine = false :=
  Event.isTraceLine_of_apart .err fault.message (by decide)

theorem isTraceLine_imageWritten (path : String) : (imageWritten path).isTraceLine = false :=
  Event.isTraceLine_of_apart .err path (by decide)

theorem isTraceLine_of_opening {options : Options}
    {read : String → Except Files.Error (List UInt8)} {program : List UInt8} {announced : Event}
    (opened : opening options read = .ok (program, announced)) :
    announced.isTraceLine = false := by
  unfold opening at opened
  cases named : options.program with
  | none =>
    rw [named] at opened
    cases opened
    decide
  | some path =>
    simp only [named, bind, Except.bind] at opened
    split at opened
    · cases opened
    · cases opened
      rw [String.append_assoc, String.append_assoc]
      exact Event.isTraceLine_of_apart .err _ (by decide)

/-- The last line of a command is not a trace line, also when it is the report of a failure. -/
theorem isTraceLine_closing (options : Options) {record : RunRecord}
    (raised : ∀ report, record.fault = some report → ∃ thrown : Thrown, report.kind = thrown.kind) :
    (closing options record).1.isTraceLine = false := by
  unfold closing
  cases record.reason with
  | halt | timeout =>
    simp only [String.append_assoc]
    exact Event.isTraceLine_of_apart .err _ (by decide)
  | fail =>
    cases failure : record.fault with
    | none => exact Event.isTraceLine_of_apart .err _ (by decide)
    | some report =>
      obtain ⟨thrown, kind⟩ := raised report failure
      exact Report.isTraceLine_text kind

end CommandLine

/-- What a run reports is something that was raised. -/
theorem Runner.kind_of_execute {Host : Type} {callbacks : Callbacks Host} {limit : Number}
    {turns : Nat} {program : List UInt8} {host : Host} {result : RunRecord × Host}
    (returned : execute callbacks limit turns program host = some (.ok result)) :
    ∀ report, result.1.fault = some report → ∃ thrown : Thrown, report.kind = thrown.kind := by
  have concluding : ∃ session, concluded (advance callbacks limit turns session) =
      some (.ok result) := by
    unfold execute at returned
    cases begun : start program host with
    | error fault =>
      rw [begun] at returned
      cases returned
    | ok session =>
      rw [begun] at returned
      exact ⟨session, returned⟩
  obtain ⟨session, ended⟩ := concluding
  rcases progress : advance callbacks limit turns session with ⟨ending, after⟩ | after
  · rw [progress] at ended
    obtain ⟨fault, rfl, explained⟩ := eq_leave_of_concluded ended
    intro report reported
    have failure : fault = some report := reported
    cases ending with
    | halt | timeout =>
      have nothing : fault = none := explained
      rw [nothing] at failure
      cases failure
    | fail thrown =>
      obtain ⟨described, shown, description⟩ := explained
      rw [shown] at failure
      cases failure
      exact ⟨thrown, (Report.parts_of_describe description).1⟩
  · rw [progress] at ended
    cases ended

namespace CommandLine

theorem withoutTrace_finish {options : Options} (on : Bool) {record : RunRecord}
    {log other : Log} (files : Files.Store) (untraced : Untraced log other)
    (last : (closing options record).1.isTraceLine = false) :
    (finish (options.traced on) record log files).withoutTrace =
      finish options record other files := by
  have sameClosing : closing (options.traced on) record = closing options record := rfl
  have sameImage : imagePath? (options.traced on) = imagePath? options := rfl
  unfold finish
  rw [sameClosing, sameImage]
  cases imagePath? options with
  | none => exact congrArg (Outcome.mk _ · _) (untraced.push last).symm
  | some path =>
    simp only
    cases saveImage path (.ofCells record.memory.toList Image.standardSide) files with
    | error error files => exact congrArg (Outcome.mk _ · _) untraced.symm
    | ok _ files =>
      exact congrArg (Outcome.mk _ · _)
        ((untraced.push (isTraceLine_imageWritten path)).push last).symm

/-- Deleting the trace lines of a command leaves what the command does without the option for a
trace: the same lines in the same order, the same status and the same files. -/
theorem run_filter_trace (encode : Image → List UInt8) (turns : Nat) {environment : Environment}
    (arguments : List String) (files : Files.Store)
    (off : environment.flag "VM_TRACE" = false) :
    run encode turns environment (arguments.filter (· ≠ "--trace")) files =
      (run encode turns environment arguments files).map Outcome.withoutTrace := by
  obtain ⟨on, parsed⟩ := (Options.ofEnvironment environment).exists_takeAll_eq arguments
  unfold run Options.parse
  rw [parsed]
  cases taken : (Options.ofEnvironment environment).takeAll
    (arguments.filter (· ≠ "--trace")) with
  | error fault =>
    exact congrArg (some <| Outcome.mk _ · _) (untraced_singleton (isTraceLine_refusal fault))
  | ok options =>
    have silent : options.trace = false := (Options.trace_of_takeAll (by simp) taken).trans off
    have sameOpening : opening (options.traced on) (files.readBytes encode) =
        opening options (files.readBytes encode) := rfl
    simp only [bind, Except.bind, Except.map, sameOpening]
    cases opened : opening options (files.readBytes encode) with
    | error fault =>
      exact congrArg (some <| Outcome.mk _ · _) (untraced_singleton (isTraceLine_refusal fault))
    | ok program =>
      obtain ⟨program, announced⟩ := program
      have first := untraced_singleton (isTraceLine_of_opening opened)
      have results := Runner.execute_matched (callbacks_correspond on silent) options.limit turns
        program first
      have sameLimit : (options.traced on).limit = options.limit := rfl
      simp only [pure, Except.pure, sameLimit]
      generalize Runner.execute (callbacks (options.traced on)) options.limit turns program
        #[announced] = tracing at results
      generalize ran : Runner.execute (callbacks options) options.limit turns program
        #[announced] = plain at results
      cases results with
      | unfinished => rfl
      | raised thrown => exact congrArg (some <| Outcome.mk _ · _) first
      | returned record untraced =>
        have last := isTraceLine_closing options (Runner.kind_of_execute ran)
        exact congrArg some (withoutTrace_finish on files untraced last).symm

end CommandLine

end EightBit
