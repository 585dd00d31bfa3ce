/-
What a command comes to. A command that is not accepted writes one line and touches nothing. Any
other runs its program, and what it writes and returns are those of that run as it would go with
nobody listening: printed lines on the output stream, everything else on the error stream, and a
status that tells how the run ended. A picture that is asked for is written from the memory the run
leaves, however it ended, and only its directory or its file can make a command fail; the closing
line is written last, and not at all then.
-/

import EightBit.Proofs.Pictures
import EightBit.Proofs.Tracing
import EightBit.Proofs.WrittenFiles
import EightBit.Proofs.Writing

namespace EightBit

/-! ### Refusals -/

namespace Options

/-- An argument that is not accepted is a problem of loading. -/
theorem exists_load_of_take {options : Options} {argument : String} {fault : Fault}
    (refused : options.take argument = .error fault) :
    ∃ problem line, fault = .load problem line := by
  unfold take at refused
  by_cases trace : argument = "--trace"
  · rw [if_pos trace] at refused
    cases refused
  · rw [if_neg trace] at refused
    cases limit : Text.after? "--max-steps=" argument with
    | some text =>
      simp only [limit] at refused
      cases spelled : stepLimit? text with
      | some number =>
        rw [spelled] at refused
        cases refused
      | none =>
        rw [spelled] at refused
        cases refused
        exact ⟨_, _, rfl⟩
    | none =>
      simp only [limit] at refused
      cases image : Text.after? "--dump-png=" argument with
      | some path =>
        rw [image] at refused
        cases refused
      | none =>
        simp only [image] at refused
        by_cases option : Text.startsWith "--" argument = true
        · rw [if_pos option] at refused
          cases refused
          exact ⟨_, _, rfl⟩
        · rw [if_neg option] at refused
          cases named : options.program with
          | none =>
            rw [named] at refused
            cases refused
          | some path =>
            rw [named] at refused
            cases refused
            exact ⟨_, _, rfl⟩

theorem exists_load_of_takeAll {options : Options} {arguments : List String} {fault : Fault}
    (refused : options.takeAll arguments = .error fault) :
    ∃ problem line, fault = .load problem line := by
  induction arguments generalizing options with
  | nil => cases refused
  | cons argument rest inductionHypothesis =>
    rw [takeAll] at refused
    cases taken : options.take argument with
    | ok accepted =>
      rw [taken] at refused
      exact inductionHypothesis refused
    | error cause =>
      rw [taken] at refused
      cases refused
      exact exists_load_of_take taken

end Options

namespace Files.Store

variable {files : Store} {encode : Image → List UInt8} {path : String}

/-- So is a program that cannot be read, and a text that is none. -/
theorem exists_load_of_program {fault : Fault}
    (refused : files.program encode path = .error fault) :
    ∃ problem line, fault = .load problem line := by
  unfold program programOf at refused
  split at refused
  · rename_i bytes _
    obtain ⟨before, text, stops⟩ :=
      (Source.reading 1 0 (Source.lines (Text.Utf8.decode bytes).toList)).stops (Nat.zero_le 256)
        refused
    exact ⟨_, _, stops.named⟩
  · cases refused
    exact ⟨_, _, rfl⟩

theorem length_program_le {program : List UInt8}
    (loaded : files.program encode path = .ok program) : program.length ≤ 256 := by
  unfold Store.program programOf at loaded
  split at loaded
  · obtain ⟨-, room, values⟩ := Source.parse_eq_ok_iff.mp loaded
    have count := congrArg List.length values
    rw [List.length_map, List.length_map] at count
    omega
  · cases loaded

end Files.Store

namespace CommandLine

/-- A command is not accepted: its arguments are not, or its program cannot be loaded. -/
def NotLoaded (encode : Image → List UInt8) (environment : Environment)
    (arguments : List String) (files : Files.Store) (problem : LoadProblem)
    (line : Option Number) : Prop :=
  Options.parse environment arguments = .error (.load problem line) ∨
    ∃ options path, Options.parse environment arguments = .ok options ∧
      options.program = some path ∧ files.program encode path = .error (.load problem line)

/-- A command is accepted, with its options and the program it is to run. No program is an empty
one. -/
structure Accepted (encode : Image → List UInt8) (environment : Environment)
    (arguments : List String) (files : Files.Store) (options : Options)
    (program : List UInt8) : Prop where
  parsed : Options.parse environment arguments = .ok options
  loaded : options.program.elim (.ok []) (files.program encode) = .ok program

/-- The line that announces a program. -/
def announcement (options : Options) (program : List UInt8) : Event where
  stream := .err
  text := options.program.elim "[vm] No program given" fun path =>
    "[load] " ++ program.length.repr ++ " bytes from " ++ Files.Path.baseName path

section

variable {encode : Image → List UInt8} {environment : Environment} {arguments : List String}
  {files : Files.Store} {options : Options} {program : List UInt8}

theorem notLoaded_or_accepted (encode : Image → List UInt8) (environment : Environment)
    (arguments : List String) (files : Files.Store) :
    (∃ problem line, NotLoaded encode environment arguments files problem line) ∨
      ∃ options program, Accepted encode environment arguments files options program := by
  cases parsed : Options.parse environment arguments with
  | error fault =>
    obtain ⟨problem, line, rfl⟩ := Options.exists_load_of_takeAll parsed
    exact Or.inl ⟨problem, line, Or.inl parsed⟩
  | ok options =>
    cases named : options.program with
    | none => exact Or.inr ⟨options, [], parsed, by rw [named]; rfl⟩
    | some path =>
      cases loaded : files.program encode path with
      | error fault =>
        obtain ⟨problem, line, rfl⟩ := Files.Store.exists_load_of_program loaded
        exact Or.inl ⟨problem, line, Or.inr ⟨options, path, parsed, named, loaded⟩⟩
      | ok program => exact Or.inr ⟨options, program, parsed, by rw [named]; exact loaded⟩

/-- An accepted command has no other options and no other program. -/
theorem Accepted.unique {other : Options} {another : List UInt8}
    (accepted : Accepted encode environment arguments files options program)
    (again : Accepted encode environment arguments files other another) :
    options = other ∧ program = another := by
  have same : options = other := Except.ok.inj (accepted.parsed.symm.trans again.parsed)
  subst same
  exact ⟨rfl, Except.ok.inj (accepted.loaded.symm.trans again.loaded)⟩

theorem Accepted.not_notLoaded
    (accepted : Accepted encode environment arguments files options program) :
    ¬ ∃ problem line, NotLoaded encode environment arguments files problem line := by
  rintro ⟨problem, line, refused | ⟨other, path, parsed, named, refused⟩⟩
  · cases accepted.parsed.symm.trans refused
  · cases accepted.parsed.symm.trans parsed
    have loaded := accepted.loaded
    rw [named] at loaded
    cases loaded.symm.trans refused

theorem Accepted.length_le
    (accepted : Accepted encode environment arguments files options program) :
    program.length ≤ 256 := by
  have loaded := accepted.loaded
  cases named : options.program with
  | none =>
    rw [named] at loaded
    cases loaded
    exact Nat.zero_le 256
  | some path =>
    rw [named] at loaded
    exact Files.Store.length_program_le loaded

/-- What is opened is the program, with its announcement. -/
theorem opening_eq (encode : Image → List UInt8) (options : Options) (files : Files.Store) :
    opening options (files.readBytes encode) =
      (options.program.elim (.ok []) (files.program encode)).map fun program =>
        (program, announcement options program) := by
  unfold opening announcement
  cases named : options.program with
  | none => rfl
  | some path =>
    show (files.program encode path >>= _) = (files.program encode path).map _
    cases files.program encode path <;> rfl

theorem run_of_notLoaded (turns : Nat) {problem : LoadProblem} {line : Option Number}
    (refused : NotLoaded encode environment arguments files problem line) :
    run encode turns environment arguments files =
      some { status := .ok 2, events := #[refusal (.load problem line)], files } := by
  unfold run
  rcases refused with refused | ⟨options, path, parsed, named, loaded⟩
  · rw [refused]
    rfl
  · rw [parsed]
    simp only [bind, Except.bind, opening_eq, named, Option.elim_some, loaded, Except.map]
    rfl

theorem run_of_unfinished {turns : Nat}
    (accepted : Accepted encode environment arguments files options program)
    (unfinished : Runner.execute (callbacks options) options.limit turns program
      #[announcement options program] = none) :
    run encode turns environment arguments files = none := by
  unfold run
  rw [accepted.parsed]
  simp only [bind, Except.bind, opening_eq, accepted.loaded, Except.map, pure, Except.pure,
    unfinished]

theorem run_of_returned {turns : Nat} {record : RunRecord} {log : Log}
    (accepted : Accepted encode environment arguments files options program)
    (returned : Runner.execute (callbacks options) options.limit turns program
      #[announcement options program] = some (.ok (record, log))) :
    run encode turns environment arguments files = some (finish options record log files) := by
  unfold run
  rw [accepted.parsed]
  simp only [bind, Except.bind, opening_eq, accepted.loaded, Except.map, pure, Except.pure,
    returned]

end

/-! ### What is written while a program runs -/

/-- The event that a line of the run becomes, if it is passed on. -/
def event? (options : Options) : Line → Option Event
  | .trace text => if options.trace then some ⟨.err, text⟩ else none
  | .printed text => some ⟨.out, text⟩

theorem calm_callbacks (options : Options) : (callbacks options).Calm := by
  intro trace given line log
  unfold callbacks at given
  simp only at given
  split at given
  · cases given
    exact ⟨_, rfl⟩
  · cases given

theorem legible_callbacks (options : Options) : (callbacks options).Legible := by
  rintro listener (given | given) line log thrown after raised
  · unfold callbacks at given
    simp only at given
    split at given
    · cases given
      cases raised
    · cases given
  · cases given
    cases raised

theorem tell_callbacks (options : Options) (line : Line) (log : Log) :
    ∃ after, (callbacks options).tell line log = .ok () after ∧
      after.toList = log.toList ++ (event? options line).toList := by
  cases line with
  | printed text => exact ⟨_, rfl, Array.toList_push⟩
  | trace text =>
    unfold callbacks Callbacks.tell event?
    cases options.trace with
    | true => exact ⟨_, rfl, Array.toList_push⟩
    | false => exact ⟨_, rfl, (List.append_nil _).symm⟩

theorem toList_deliver (options : Options) (lines : List Line) (log : Log) :
    ((callbacks options).deliver lines log).toList =
      log.toList ++ lines.filterMap (event? options) := by
  induction lines generalizing log with
  | nil => exact (List.append_nil _).symm
  | cons line rest inductionHypothesis =>
    obtain ⟨after, told, written⟩ := tell_callbacks options line log
    have first : (callbacks options).deliver (line :: rest) log =
        (callbacks options).deliver rest after := by
      show (callbacks options).deliver rest (stateLeft ((callbacks options).tell line log)) = _
      rw [told]
      rfl
    rw [first, inductionHypothesis, written, List.append_assoc, List.filterMap_cons]
    cases event? options line <;> rfl

/-- Of the lines of a run, those that are printed go to the output stream. -/
theorem filter_out_events (options : Options) (lines : List Line) :
    (lines.filterMap (event? options)).filter (fun event => event.stream = .out) =
      (lines.filterMap Line.printed?).map (Event.mk .out) := by
  induction lines with
  | nil => rfl
  | cons line rest inductionHypothesis =>
    cases line with
    | printed text => exact congrArg (Event.mk .out text :: ·) inductionHypothesis
    | trace text =>
      rw [List.filterMap_cons, List.filterMap_cons, event?, Line.printed?]
      cases options.trace with
      | true => exact inductionHypothesis
      | false => exact inductionHypothesis

/-- All that a command writes up to the end of its program: the announcement, and the lines of the
steps that the run has counted. -/
def written (options : Options) (program : List UInt8) (record : RunRecord) : List Event :=
  announcement options program ::
    (Runner.transcript (callbacks options) program #[announcement options program]
      record.steps).filterMap (event? options)

/-! ### The end of a command -/

/-- The picture of the memory that a run leaves. -/
def picture (record : RunRecord) : Image :=
  .ofCells record.memory.toList Image.standardSide

/-- A path for the picture is in force. An empty one does not count. -/
def ImageAt (options : Options) (path : String) : Prop :=
  options.image = some path ∧ path ≠ ""

/-- Making the directory of a path, or writing the file, fails. -/
def CannotSave (path : String) (image : Image) (files : Files.Store) : Prop :=
  (∃ error after, Files.Store.makeParents path files = .error error after) ∨
    ∃ ready error after, Files.Store.makeParents path files = .ok () ready ∧
      Files.Store.write path (.picture image) ready = .error error after

/-- A command does what its run says. -/
structure Reflects (options : Options) (program : List UInt8) (files : Files.Store)
    (record : RunRecord) (outcome : Outcome) : Prop where
  /-- What is printed, and nothing else, is on the output stream. -/
  printed : outcome.events.toList.filter (fun event => event.stream = .out) =
    record.output.toList.map (Event.mk .out)
  /-- Only a picture that cannot be saved makes a command fail. -/
  escapes : (∃ thrown, outcome.status = .error thrown) ↔
    ∃ path, ImageAt options path ∧ CannotSave path (picture record) files
  /-- Then nothing is written behind the lines of the run. -/
  silent : ∀ thrown, outcome.status = .error thrown →
    outcome.events.toList = written options program record
  /-- The status tells how the run ended. -/
  status : ∀ code, outcome.status = .ok code →
    (code = 0 ↔ record.reason = .halt) ∧ (code = 1 ↔ record.reason = .fail) ∧
      (code = 3 ↔ record.reason = .timeout)
  /-- Without a picture, the closing line is all that follows, and files are as they were. -/
  plain : (∀ path, ¬ ImageAt options path) →
    outcome.events.toList = written options program record ++ [(closing options record).1] ∧
      outcome.files = files
  /-- A picture is there when the closing line is written, and it shows the memory that the run
  leaves: its squares have the shades of the cells. -/
  saved : ∀ code path, outcome.status = .ok code → ImageAt options path →
    outcome.events.toList =
        written options program record ++ [imageWritten path, (closing options record).1] ∧
      ∃ image, outcome.files.read path = .ok (.picture image) ∧
        Image.Shows record.memory.toList 8 image ∧ image.shades = record.memory.toList

section

variable {options : Options} {record : RunRecord} {log : Log} {files ready after : Files.Store}
  {path : String}

theorem imagePath?_eq_some_iff : imagePath? options = some path ↔ ImageAt options path := by
  unfold imagePath? ImageAt
  rw [Option.filter_eq_some_iff, Bool.not_eq_true', ← Bool.not_eq_true, String.isEmpty_iff]

theorem imageAt_unique {other : String} (first : ImageAt options path)
    (second : ImageAt options other) : path = other :=
  Option.some.inj (first.1.symm.trans second.1)

theorem finish_plain (none : ∀ path, ¬ ImageAt options path) :
    finish options record log files =
      { status := .ok (closing options record).2
        events := log.push (closing options record).1
        files } := by
  have asked : imagePath? options = .none :=
    Option.eq_none_iff_forall_ne_some.mpr fun path found =>
      none path (imagePath?_eq_some_iff.mp found)
  unfold finish
  rw [asked]

/-- What is done once directories were made, or were not. -/
def afterParents (path : String) (image : Image) :
    EStateM.Result Files.Error Files.Store Unit → EStateM.Result Files.Error Files.Store Unit
  | .ok _ ready => Files.Store.write path (.picture image) ready
  | .error error after => .error error after

theorem saveImage_apply (path : String) (image : Image) (files : Files.Store) :
    saveImage path image files =
      afterParents path image (Files.Store.makeParents path files) := by
  show EStateM.bind (Files.Store.makeParents path) _ files = _
  unfold EStateM.bind afterParents
  cases Files.Store.makeParents path files <;> rfl

theorem saveImage_eq_error (image : Image) (failed : CannotSave path image files) :
    ∃ error after, saveImage path image files = .error error after := by
  rw [saveImage_apply]
  rcases failed with ⟨error, after, made⟩ | ⟨ready, error, after, made, wrote⟩
  · exact ⟨error, after, by rw [made]; rfl⟩
  · exact ⟨error, after, by rw [made]; exact wrote⟩

/-- A picture that can be saved is read from where it was saved. -/
theorem saveImage_eq_ok (image : Image) (able : ¬ CannotSave path image files) :
    ∃ after, saveImage path image files = .ok () after ∧
      after.read path = .ok (.picture image) := by
  rw [saveImage_apply]
  cases made : Files.Store.makeParents path files with
  | error error after => exact absurd (Or.inl ⟨error, after, made⟩) able
  | ok _ ready =>
    cases wrote : Files.Store.write path (.picture image) ready with
    | error error after => exact absurd (Or.inr ⟨ready, error, after, made, wrote⟩) able
    | ok _ after => exact ⟨after, wrote, Files.Store.read_of_write wrote⟩

theorem finish_saved (asked : ImageAt options path)
    (saved : saveImage path (picture record) files = .ok () after) :
    finish options record log files =
      { status := .ok (closing options record).2
        events := (log.push (imageWritten path)).push (closing options record).1
        files := after } := by
  unfold finish
  rw [imagePath?_eq_some_iff.mpr asked]
  simp only
  rw [← picture, saved]

theorem finish_unsaved (asked : ImageAt options path) {error : Files.Error}
    (failed : saveImage path (picture record) files = .error error after) :
    finish options record log files =
      { status := .error (.fault (.file error)), events := log, files := after } := by
  unfold finish
  rw [imagePath?_eq_some_iff.mpr asked]
  simp only
  rw [← picture, failed]

end

theorem stream_closing (options : Options) (record : RunRecord) :
    (closing options record).1.stream = .err := by
  unfold closing
  cases record.reason <;> rfl

/-- The status that tells of a reason. -/
def statusOf : Reason → Nat
  | .halt => statusHalted
  | .fail => statusFailed
  | .timeout => statusTimedOut

theorem status_closing (options : Options) (record : RunRecord) :
    (closing options record).2 = statusOf record.reason := by
  unfold closing
  cases record.reason <;> rfl

theorem statusOf_eq_iff (reason : Reason) :
    (statusOf reason = 0 ↔ reason = .halt) ∧ (statusOf reason = 1 ↔ reason = .fail) ∧
      (statusOf reason = 3 ↔ reason = .timeout) := by
  cases reason <;> decide

/-- Lines on the error stream do not count among those that are printed. -/
theorem filter_out_append {events more : List Event}
    (others : ∀ event ∈ more, event.stream = .err) :
    (events ++ more).filter (fun event => event.stream = .out) =
      events.filter fun event => event.stream = .out := by
  have nothing : more.filter (fun event => event.stream = .out) = [] := by
    refine List.filter_eq_nil_iff.mpr fun event member => ?_
    rw [others event member]
    decide
  rw [List.filter_append, nothing, List.append_nil]

section

variable {options : Options} {program : List UInt8} {files : Files.Store} {record : RunRecord}
  {log : Log}

theorem filter_out_written
    (printed : (Runner.transcript (callbacks options) program #[announcement options program]
      record.steps).filterMap Line.printed? = record.output.toList) :
    (written options program record).filter (fun event => event.stream = .out) =
      record.output.toList.map (Event.mk .out) := by
  have first : (announcement options program).stream = .err := rfl
  unfold written
  rw [List.filter_cons_of_neg (by rw [first]; decide), filter_out_events, printed]

/-- The picture of a memory of the standard size has the memory in its squares. -/
theorem shows_picture (full : record.memory.toList.length = 256) :
    Image.Shows record.memory.toList 8 (picture record) ∧
      (picture record).shades = record.memory.toList := by
  have shown : Image.Shows record.memory.toList 8 (picture record) :=
    Image.shows_ofCells _ (by decide)
  exact ⟨shown, (shown.shades (by decide)).trans (Image.padded_eq_self full)⟩

/-- The end of a command, by what is asked for and whether it can be had. -/
theorem reflects_finish (told : log.toList = written options program record)
    (full : record.memory.toList.length = 256)
    (printed : log.toList.filter (fun event => event.stream = .out) =
      record.output.toList.map (Event.mk .out)) :
    Reflects options program files record (finish options record log files) := by
  have closed := stream_closing options record
  by_cases asked : ∃ path, ImageAt options path
  · obtain ⟨path, asked⟩ := asked
    have only {other : String} (wanted : ImageAt options other) : other = path :=
      imageAt_unique wanted asked
    by_cases failed : CannotSave path (picture record) files
    · obtain ⟨error, after, unsaved⟩ := saveImage_eq_error _ failed
      rw [finish_unsaved asked unsaved]
      exact {
        printed
        escapes := ⟨fun _ => ⟨path, asked, failed⟩, fun _ => ⟨_, rfl⟩⟩
        silent := fun _ _ => told
        status := fun _ returned => nomatch returned
        plain := fun none => absurd asked (none path)
        saved := fun _ _ returned => nomatch returned }
    · obtain ⟨after, saved, read⟩ := saveImage_eq_ok _ failed
      have events : ((log.push (imageWritten path)).push (closing options record).1).toList =
          log.toList ++ [imageWritten path, (closing options record).1] := by
        rw [Array.toList_push, Array.toList_push, List.append_assoc]
        rfl
      rw [finish_saved asked saved]
      refine ⟨?_, ⟨fun ⟨_, raised⟩ => (nomatch raised), ?_⟩, fun _ raised => (nomatch raised), ?_,
        fun none => absurd asked (none path), ?_⟩
      · rw [events, filter_out_append (by simpa using ⟨rfl, closed⟩), printed]
      · rintro ⟨other, wanted, cannot⟩
        rw [only wanted] at cannot
        exact absurd cannot failed
      · intro code returned
        cases returned
        rw [status_closing]
        exact statusOf_eq_iff record.reason
      · intro code other _ wanted
        rw [only wanted, events, told]
        exact ⟨rfl, _, read, shows_picture full⟩
  · have none (path : String) (wanted : ImageAt options path) : False := asked ⟨path, wanted⟩
    have events : (log.push (closing options record).1).toList =
        log.toList ++ [(closing options record).1] := Array.toList_push
    rw [finish_plain none]
    refine ⟨?_, ⟨fun ⟨_, raised⟩ => (nomatch raised), ?_⟩, fun _ raised => (nomatch raised), ?_,
      fun _ => ⟨?_, rfl⟩, fun _ path _ wanted => absurd wanted (none path)⟩
    · rw [events, filter_out_append (by simpa using closed), printed]
    · rintro ⟨path, wanted, -⟩
      exact absurd wanted (none path)
    · intro code returned
      cases returned
      rw [status_closing]
      exact statusOf_eq_iff record.reason
    · rw [events, told]

end

/-! ### Commands -/

/-- A host that does not listen. -/
def unheard : Callbacks Unit where
  trace := none
  output := none

/-- The listeners of a command never fail, so the run goes on as if there were none. -/
theorem callbacks_correspond_unheard (options : Options) :
    (callbacks options).Correspond unheard fun _ _ => True where
  trace := by
    intro machine address log other _
    obtain ⟨after, told, -⟩ := tell_callbacks options (.trace (machine.lineAt address)) log
    rw [told]
    exact .ok trivial
  printed := by
    intro text log other _
    obtain ⟨after, told, -⟩ := tell_callbacks options (.printed text) log
    rw [told]
    exact .ok trivial

/-- An accepted command is over when its run is, and then reflects it. -/
theorem reflects_run {encode : Image → List UInt8} {environment : Environment}
    {arguments : List String} {files : Files.Store} {options : Options} {program : List UInt8}
    (turns : Nat)
    (accepted : Accepted encode environment arguments files options program) :
    (Runner.execute unheard options.limit turns program () = none ∧
      run encode turns environment arguments files = none) ∨
    ∃ record outcome,
      Runner.execute unheard options.limit turns program () = some (.ok (record, ())) ∧
        run encode turns environment arguments files = some outcome ∧
        Reflects options program files record outcome := by
  have results : Runner.SameResult (fun _ _ => True)
      (Runner.execute (callbacks options) options.limit turns program
        #[announcement options program])
      (Runner.execute unheard options.limit turns program ()) :=
    Runner.execute_matched (callbacks_correspond_unheard options) options.limit turns program
      trivial
  generalize executed : Runner.execute (callbacks options) options.limit turns program
    #[announcement options program] = result at results
  generalize Runner.execute unheard options.limit turns program () = plain at results ⊢
  cases results with
  | unfinished => exact Or.inl ⟨rfl, run_of_unfinished accepted executed⟩
  | raised thrown =>
    obtain ⟨result, impossible⟩ :=
      Runner.exists_result (legible_callbacks options) accepted.length_le executed
    cases impossible
  | @returned record log other _ =>
    have watched :=
      Runner.watched_of_returned (calm_callbacks options) accepted.length_le executed
    have full := Runner.length_memory_of_returned accepted.length_le executed
    have told : log.toList = written options program record := by
      rw [watched.told, toList_deliver]
      rfl
    have printed := filter_out_written watched.printed
    rw [← told] at printed
    exact Or.inr ⟨record, _, rfl, run_of_returned accepted executed,
      reflects_finish told full printed⟩

/-- The outcome of a command is that of its run. Status 2 says that the command was not accepted;
then one line says why, whatever the number of turns, and no file is touched. Any other command runs
a program that can be loaded, is over when the run is, and reflects what the run returns. -/
theorem outcome_reflects_run (encode : Image → List UInt8) (environment : Environment)
    (arguments : List String) (files : Files.Store) :
    (∀ turns outcome, run encode turns environment arguments files = some outcome →
      (outcome.status = .ok 2 ↔
        ∃ problem line, NotLoaded encode environment arguments files problem line)) ∧
    (∀ problem line, NotLoaded encode environment arguments files problem line → ∀ turns,
      run encode turns environment arguments files =
        some {
          status := .ok 2
          events := #[⟨.err, "[load] " ++ (Fault.load problem line).message⟩]
          files }) ∧
    ((¬ ∃ problem line, NotLoaded encode environment arguments files problem line) →
      ∃ options program, Accepted encode environment arguments files options program ∧
        program.length ≤ 256 ∧
        ∀ turns,
          (Runner.execute unheard options.limit turns program () = none ∧
            run encode turns environment arguments files = none) ∨
          ∃ record outcome,
            Runner.execute unheard options.limit turns program () = some (.ok (record, ())) ∧
              run encode turns environment arguments files = some outcome ∧
              Reflects options program files record outcome) := by
  refine ⟨fun turns outcome ended => ⟨fun refusing => ?_, ?_⟩, ?_, fun accepting => ?_⟩
  · rcases notLoaded_or_accepted encode environment arguments files with
      refused | ⟨options, program, accepted⟩
    · exact refused
    · rcases reflects_run turns accepted with ⟨-, unfinished⟩ | ⟨record, other, -, same, reflects⟩
      · rw [unfinished] at ended
        cases ended
      · rw [same] at ended
        cases ended
        -- no reason has this status
        obtain ⟨halted, failed, timedOut⟩ := reflects.status 2 refusing
        cases reason : record.reason with
        | halt => exact absurd (halted.mpr reason) (by decide)
        | fail => exact absurd (failed.mpr reason) (by decide)
        | timeout => exact absurd (timedOut.mpr reason) (by decide)
  · rintro ⟨problem, line, refused⟩
    rw [run_of_notLoaded turns refused] at ended
    cases ended
    rfl
  · intro problem line refused turns
    exact run_of_notLoaded turns refused
  · rcases notLoaded_or_accepted encode environment arguments files with
      refused | ⟨options, program, accepted⟩
    · exact absurd refused accepting
    · exact ⟨options, program, accepted, accepted.length_le,
        fun turns => reflects_run turns accepted⟩

/-- A command that prints and halts, and asks for a picture in place of its own program. -/
def pictured : List String :=
  ["p", "--dump-png=p"]

/-- The options that the command spells. -/
def picturedOptions : Options where
  program := some "p"
  trace := false
  limit := .ofNat 0
  image := some "p"

-- the parts of a path are found by a recursion that does not evaluate, so it is unrolled here
theorem parts_pictured : Files.Path.parts "p" = ["p"] := by
  unfold Files.Path.parts String.splitOn
  rw [if_neg (by decide), String.splitOnAux, if_neg (by decide), if_neg (by decide),
    String.splitOnAux, if_pos (by decide)]
  rfl

theorem accepted_pictured :
    Accepted Image.png .empty pictured Runner.printing picturedOptions [0x47, 0, 1] := by
  have located : Runner.printing.locate "p" = .ok ["p"] := by
    unfold Files.Store.locate Files.Store.followable
    rw [parts_pictured]
    rfl
  refine ⟨rfl, ?_⟩
  show Runner.printing.program Image.png "p" = _
  unfold Files.Store.program Files.Store.readBytes Files.Store.read
  rw [located]
  rfl

theorem not_cannotSave_pictured (image : Image) : ¬ CannotSave "p" image Runner.printing := by
  have made : Files.Store.makeParents "p" Runner.printing = .ok () Runner.printing := by
    unfold Files.Store.makeParents Files.Path.resolve
    rw [parts_pictured]
    rfl
  have found : Runner.printing.writable "p" = .ok ["p"] := by
    unfold Files.Store.writable Files.Store.followable
    rw [parts_pictured]
    rfl
  rintro (⟨error, after, failed⟩ | ⟨ready, error, after, prepared, failed⟩)
  · rw [made] at failed
    cases failed
  · rw [made] at prepared
    cases prepared
    rw [Files.Store.write_apply, found] at failed
    cases failed

/-- The command writes what is printed to the output stream, and where its program was there is now
a picture of its memory, which holds the program. An option that does not exist is refused before
anything is run. -/
theorem pictured_reflected :
    (∃ record outcome image,
      Runner.execute unheard (.ofNat 0) 2 [0x47, 0, 1] () = some (.ok (record, ())) ∧
      record.memory.toList = 0x47 :: 0 :: 1 :: List.replicate 253 0 ∧
      run Image.png 2 .empty pictured Runner.printing = some outcome ∧
      outcome.status = .ok 0 ∧
      outcome.events.toList.filter (fun event => event.stream = .out) = [⟨.out, "0"⟩] ∧
      outcome.files.read "p" = .ok (.picture image) ∧
      image.shades = 0x47 :: 0 :: 1 :: List.replicate 253 0) ∧
    run Image.png 0 .empty ["--nope"] Runner.printing =
      some {
        status := .ok 2
        events := #[⟨.err, "[load] unknown option: --nope"⟩]
        files := Runner.printing } := by
  refine ⟨?_, (outcome_reflects_run Image.png .empty ["--nope"] Runner.printing).2.1
    (.unknownOption "--nope") none (Or.inl rfl) 0⟩
  obtain ⟨options, program, accepted, -, reflected⟩ :=
    (outcome_reflects_run Image.png .empty pictured Runner.printing).2.2
      accepted_pictured.not_notLoaded
  obtain ⟨rfl, rfl⟩ := accepted_pictured.unique accepted
  have known : ((Runner.execute unheard (.ofNat 0) 2 [0x47, 0, 1] ()).any fun result =>
      result.toOption.any fun result =>
        result.1.reason = .halt ∧ result.1.output = #["0"] ∧
          result.1.memory.toList = 0x47 :: 0 :: 1 :: List.replicate 253 0) = true := by
    decide +kernel
  rcases reflected 2 with ⟨unfinished, -⟩ | ⟨record, outcome, executed, ended, reflects⟩
  · have plain : Runner.execute unheard (.ofNat 0) 2 [0x47, 0, 1] () = none := unfinished
    rw [plain] at known
    cases known
  · have plain : Runner.execute unheard (.ofNat 0) 2 [0x47, 0, 1] () = some (.ok (record, ())) :=
      executed
    rw [plain] at known
    obtain ⟨halted, output, memory⟩ : record.reason = .halt ∧ record.output = #["0"] ∧
        record.memory.toList = 0x47 :: 0 :: 1 :: List.replicate 253 0 := of_decide_eq_true known
    have asked : ImageAt picturedOptions "p" := ⟨rfl, by decide⟩
    cases status : outcome.status with
    | error thrown =>
      obtain ⟨path, wanted, cannot⟩ := reflects.escapes.mp ⟨thrown, status⟩
      rw [imageAt_unique wanted asked] at cannot
      exact absurd cannot (not_cannotSave_pictured _)
    | ok code =>
      have zero : code = 0 := (reflects.status code status).1.mpr halted
      subst zero
      have printed := reflects.printed
      rw [output] at printed
      obtain ⟨-, image, read, -, shades⟩ := reflects.saved 0 "p" status asked
      exact ⟨record, outcome, image, plain, memory, ended, status, printed, read,
        shades.trans memory⟩

end CommandLine

end EightBit
