/-
A trace is a view of a run and no part of it. The listener for trace lines is called between the
decoding of an instruction and its execution, and all it can change is the state of its own host. As
long as it does not fail, and what is done with printed lines does not depend on it, a run returns
the same with the listener and without. What it is told is told in full: a line for every step that
the run has counted, showing the machine as it stood before that step, and every printed line right
behind the line of the instruction that prints it. On the command line the two kinds of lines can be
told apart, so deleting the trace from what a command writes leaves what it writes without one.
-/

import EightBit.Image.Png
import EightBit.Proofs.Listing
import EightBit.Proofs.StepLimit
import EightBit.Proofs.TracedCommand
import EightBit.Proofs.Transcript

namespace EightBit

variable {Host : Type}

/-! ### Runs with and without a trace -/

namespace Callbacks

/-- The same host, deaf to trace lines. -/
def untraced (callbacks : Callbacks Host) : Callbacks Host :=
  { callbacks with trace := none }

/-- The listener for printed lines looks at a part of the host that trace lines do not touch. -/
def Apart (callbacks : Callbacks Host) : Prop :=
  ∃ (Part : Type) (part : Host → Part),
    (∀ text host, part (stateLeft (callbacks.tell (.trace text) host)) = part host) ∧
    ∀ text host other, part host = part other →
      Matched (fun host other => part host = part other)
        (callbacks.tell (.printed text) host) (callbacks.tell (.printed text) other)

/-- A listener for printed lines that never fails is like that. -/
theorem apart_of_steady {callbacks : Callbacks Host}
    (steady : ∀ text host, ∃ after, callbacks.tell (.printed text) host = .ok () after) :
    callbacks.Apart := by
  refine ⟨Unit, fun _ => (), fun _ _ => rfl, fun text host other _ => ?_⟩
  obtain ⟨after, told⟩ := steady text host
  obtain ⟨last, shown⟩ := steady text other
  rw [told, shown]
  exact .ok rfl

theorem tell_of_calm {callbacks : Callbacks Host} (calm : callbacks.Calm) (text : String)
    (host : Host) : ∃ after, callbacks.tell (.trace text) host = .ok () after := by
  obtain ⟨trace, output⟩ := callbacks
  cases trace with
  | none => exact ⟨host, rfl⟩
  | some trace => exact calm trace rfl text host

theorem correspond_untraced {callbacks : Callbacks Host} (calm : callbacks.Calm)
    {Part : Type} {part : Host → Part}
    (kept : ∀ text host, part (stateLeft (callbacks.tell (.trace text) host)) = part host)
    (same : ∀ text host other, part host = part other →
      Matched (fun host other => part host = part other)
        (callbacks.tell (.printed text) host) (callbacks.tell (.printed text) other)) :
    callbacks.Correspond callbacks.untraced fun host other => part host = part other where
  trace := by
    intro machine address host other equal
    obtain ⟨after, told⟩ := tell_of_calm calm (machine.lineAt address) host
    have untouched := kept (machine.lineAt address) host
    rw [told] at untouched ⊢
    exact .ok (untouched.trans equal)
  printed := by
    intro text host other equal
    exact same text host other equal

end Callbacks

/-- What a run returns does not depend on who listens to its trace. -/
theorem Runner.execute_untraced {callbacks : Callbacks Host} (calm : callbacks.Calm)
    (apart : callbacks.Apart) (limit : Number) (turns : Nat) (program : List UInt8) (host : Host) :
    (execute callbacks limit turns program host).map (Except.map Prod.fst) =
      (execute callbacks.untraced limit turns program host).map (Except.map Prod.fst) := by
  obtain ⟨Part, part, kept, same⟩ := apart
  have results := execute_matched (Callbacks.correspond_untraced calm kept same) limit turns
    program (Eq.refl (part host))
  generalize execute callbacks limit turns program host = tracing at results
  generalize execute callbacks.untraced limit turns program host = plain at results
  cases results <;> rfl

/-! ### What a trace line shows -/

namespace Machine

/-- A trace line shows the program counter, the mnemonic with the two bytes behind the opcode, and
all registers. -/
theorem lineAt_eq {machine : Machine} {address : Nat} {opcode : Opcode}
    (size : machine.memory.size = 256) (fetched : machine.fetched = .ok (address, opcode)) :
    machine.lineAt address =
      "TRACE: " ++ Text.hexByte (UInt8.ofNat address) ++ " | " ++ opcode.mnemonic ++ " " ++
        Text.hexByte (machine.memory.cellOrZero ((address + 1) % 256)) ++ " " ++
        Text.hexByte (machine.memory.cellOrZero ((address + 2) % 256)) ++ " | " ++
        Text.hexBytes machine.registers.toList := by
  obtain ⟨-, inside, decoded⟩ := (machine.fetched_eq_ok_iff address opcode).mp fetched
  have instruction := machine.decodeAt_ofNat (Nat.lt_of_lt_of_eq inside size)
  have found : (machine.decodeAt (.ofNat address)).opcode? = some opcode :=
    (congrArg Decoded.opcode? instruction).trans decoded
  have mnemonic := Decoded.mnemonic_of_opcode? found
  have registers : machine.registers.toNumbers.map Number.toByte = machine.registers.toList := by
    unfold Registers.toNumbers
    rw [List.map_map]
    exact List.map_id'' Number.toByte_ofByte _
  have parts : machine.lineAt address =
      Listing.traceLine (.ofNat address) (machine.decodeAt (.ofNat address)).mnemonic
        (.ofByte (machine.decodeAt (.ofNat address)).second)
        (.ofByte (machine.decodeAt (.ofNat address)).third) machine.registers.toNumbers := rfl
  rw [parts, mnemonic, instruction]
  unfold Listing.traceLine
  rw [registers, Number.toByte_ofNat, Number.toByte_ofByte, Number.toByte_ofByte]

end Machine

/-! ### What is told of a run -/

namespace Runner

/-- What it means that a host is told of a run. The lines are those of the steps that the run has
counted. -/
structure Watched (callbacks : Callbacks Host) (program : List UInt8) (host : Host)
    (record : RunRecord) (final : Host) : Prop where
  /-- The host is handed the lines one after the other, and nothing else. -/
  told : final = callbacks.deliver (transcript callbacks program host record.steps) host
  /-- What is printed among them is the output. -/
  printed : (transcript callbacks program host record.steps).filterMap Line.printed? =
    record.output.toList
  /-- There is a trace line for every step. -/
  counted : ((transcript callbacks program host record.steps).filterMap Line.trace?).length =
    record.steps
  /-- Behind as many others, a trace line shows the machine that has counted as many steps. -/
  shown : ∀ turns < record.steps, ∃ session address opcode,
    run callbacks.devices turns (initial program host) = .underway session ∧
      session.machine.steps = turns ∧ session.machine.pc = .ofNat address ∧
      session.machine.fetched = .ok (address, opcode) ∧
      ((transcript callbacks program host record.steps).filterMap Line.trace?)[turns]? =
        some (session.machine.lineAt address) ∧
      session.machine.lineAt address =
        "TRACE: " ++ Text.hexByte (UInt8.ofNat address) ++ " | " ++ opcode.mnemonic ++ " " ++
          Text.hexByte (session.machine.memory.cellOrZero ((address + 1) % 256)) ++ " " ++
          Text.hexByte (session.machine.memory.cellOrZero ((address + 2) % 256)) ++ " | " ++
          Text.hexBytes session.machine.registers.toList
  /-- A printed line stands right behind the trace line of the instruction that prints it. -/
  behind : ∀ before text after,
    transcript callbacks program host record.steps = before ++ .printed text :: after →
      ∃ turns < record.steps, ∃ session address,
        run callbacks.devices turns (initial program host) = .underway session ∧
          session.machine.fetched = .ok (address, .prn) ∧
          text = (session.machine.named address 1).toNat.repr ∧
          before = transcript callbacks program host turns ++
            [.trace (session.machine.lineAt address)]

variable {callbacks : Callbacks Host} {program : List UInt8} {host : Host}

theorem watched_of_told {ending : Ending} {after : Session (Recorder Host)}
    {fault : Option Report} (told : Told callbacks program host after) :
    Watched callbacks program host (leave after ending.reason fault) after.host.host where
  told := congrArg Recorder.host told.recorder
  printed := by
    have output : after.host.output =
        #[] ++ ((transcript callbacks program host after.machine.steps).filterMap
          Line.printed?).toArray := congrArg Recorder.output told.recorder
    rw [Array.empty_append] at output
    exact (congrArg Array.toList output).symm
  counted := length_traces told.fetched
  shown := by
    intro turns less
    obtain ⟨session, address, opcode, underway, fetched⟩ := told.fetched turns less
    have pc := ((session.machine.fetched_eq_ok_iff address opcode).mp fetched).1
    exact ⟨session, address, opcode, underway, steps_of_underway underway, pc, fetched,
      getElem?_traces told.fetched less underway fetched,
      Machine.lineAt_eq (standard_of_underway underway).size fetched⟩
  behind := by
    intro before text rest split
    obtain ⟨turns, less, address, fetched, lead, line⟩ := exists_print_of_transcript split
    obtain ⟨session, -, -, underway, -⟩ := told.fetched turns less
    rw [machineAfter_of_underway underway] at fetched lead line
    exact ⟨turns, less, session, address, underway, fetched, line, lead⟩

/-- The host of a run that returns has been told of it. -/
theorem watched_of_returned (calm : callbacks.Calm) (short : program.length ≤ 256)
    {limit : Number} {turns : Nat} {record : RunRecord} {final : Host}
    (returned : execute callbacks limit turns program host = some (.ok (record, final))) :
    Watched callbacks program host record final := by
  obtain ⟨ending, after, fault, progress, result, -⟩ := exists_ending short returned
  cases result
  exact watched_of_told (told_of_over calm progress)

/-- Tracing observes and does not interfere. A listener for trace lines that does not fail, and on
which the other listener does not depend, changes nothing about the result, whenever the run is over
and whatever the limit; the host is told of every counted step of a run that returns, and the run
returns if what the other listener raises can be put into words; and a command writes without the
option for a trace what is left of its lines when those of the tracer are deleted. -/
theorem tracing_observes (callbacks : Callbacks Host) (calm : callbacks.Calm)
    (program : List UInt8) (short : program.length ≤ 256) (host : Host) (limit : Number) :
    (callbacks.Apart → ∀ turns,
      (execute callbacks limit turns program host).map (Except.map Prod.fst) =
        (execute callbacks.untraced limit turns program host).map (Except.map Prod.fst)) ∧
    (∀ turns record final,
      execute callbacks limit turns program host = some (.ok (record, final)) →
        Watched callbacks program host record final) ∧
    (callbacks.Legible → ∀ turns outcome,
      execute callbacks limit turns program host = some outcome →
        ∃ result, outcome = .ok result) ∧
    ∀ encode turns environment arguments files, environment.flag "VM_TRACE" = false →
      CommandLine.run encode turns environment (arguments.filter (· ≠ "--trace")) files =
        (CommandLine.run encode turns environment arguments files).map
          Outcome.withoutTrace := by
  refine ⟨fun apart turns => ?_, fun turns record final returned => ?_,
    fun legible turns outcome ended => ?_, fun encode turns environment arguments files off => ?_⟩
  · exact execute_untraced calm apart limit turns program host
  · exact watched_of_returned calm short returned
  · exact exists_result legible short ended
  · exact CommandLine.run_filter_trace encode turns arguments files off

/-- A host that writes down all it is told. -/
def notebook : Callbacks (List Line) where
  trace := some fun text => modify (· ++ [.trace text])
  output := some fun text => modify (· ++ [.printed text])

/-- A program text that prints a register and halts. -/
def printing : Files.Store :=
  ⟨[("p", .file (.bytes [48, 49, 48, 48, 48, 49, 49, 49, 10, 48, 10, 49]))]⟩

/-- Two steps count before the unknown opcode, and the second prints. A notebook has all of it, and
a run without a trace returns the same; so does a command whose trace is deleted. -/
theorem spoiled_observed :
    ∃ record final, execute notebook (.ofNat 0) 3 spoiled [] = some (.ok (record, final)) ∧
      record.steps = 2 ∧ record.reason = .fail ∧
      final = [.trace "TRACE: 00 | LDI 00 08 | 00 00 00 00 00 00 00 FF",
        .trace "TRACE: 03 | PRN 00 00 | 08 00 00 00 00 00 00 FF", .printed "8"] ∧
      Watched notebook spoiled [] record final ∧
      (execute notebook.untraced (.ofNat 0) 3 spoiled []).map (Except.map Prod.fst) =
        some (.ok record) ∧
      CommandLine.run Image.png 2 .empty ["p"] printing =
        (CommandLine.run Image.png 2 .empty ["--trace", "p"] printing).map
          Outcome.withoutTrace := by
  have calm : notebook.Calm := by
    intro trace given text host
    cases given
    exact ⟨_, rfl⟩
  have apart : notebook.Apart := Callbacks.apart_of_steady fun text host => ⟨_, rfl⟩
  have facts : ((execute notebook (.ofNat 0) 3 spoiled []).any fun outcome =>
      outcome.toOption.any fun result => result.1.steps = 2 ∧ result.1.reason = .fail ∧
        result.2 = [.trace "TRACE: 00 | LDI 00 08 | 00 00 00 00 00 00 00 FF",
          .trace "TRACE: 03 | PRN 00 00 | 08 00 00 00 00 00 00 FF", .printed "8"]) = true := by
    decide +kernel
  obtain ⟨outcome, executed, known⟩ := (Option.any_eq_true _ _).mp facts
  have legible : notebook.Legible := by
    rintro listener (given | given) line host thrown after raised
    · cases given
      cases raised
    · cases given
      cases raised
  obtain ⟨same, watched, returns, command⟩ :=
    tracing_observes notebook calm spoiled (by decide) [] (.ofNat 0)
  obtain ⟨⟨record, final⟩, rfl⟩ := returns legible 3 outcome executed
  have told := watched 3 record final executed
  obtain ⟨steps, reason, lines⟩ := of_decide_eq_true known
  have plain := (same apart 3).symm.trans (congrArg (Option.map (Except.map Prod.fst)) executed)
  exact ⟨record, final, executed, steps, reason, lines, told, plain,
    command Image.png 2 .empty ["--trace", "p"] printing (by decide)⟩

end Runner

end EightBit
