/-
A load erases history. Whatever was done to a machine before, once a program is loaded into it
nothing that is done later can tell it from a machine that was made and loaded just now. Memory is
cleared, the registers and counts start anew, and what is left of the past are slots of the log into
which nothing has been recorded since. The two machines go on side by side, command by command, and
show the same all along, also in the middle of a run that never ends.
-/

import EightBit.Proofs.Commands
import EightBit.Proofs.Simulation

namespace EightBit

variable {Host : Type}

/-! ### What can be seen -/

/-- All that a machine shows: its registers and counters, its memory, the log for every count that
can be asked for, and the report that would be made of anything raised. -/
structure Appearance where
  pc : Number
  registers : Registers
  halted : Bool
  steps : Nat
  loaded : Bool
  memory : Memory
  recent : Number → List Nat
  report : Thrown → Except Thrown Report

def Machine.appearance (machine : Machine) : Appearance where
  pc := machine.pc
  registers := machine.registers
  halted := machine.halted
  steps := machine.steps
  loaded := machine.isLoaded
  memory := machine.memory
  recent := machine.recent.last
  report thrown := Report.describe thrown machine

theorem Machine.Alike.appearance {first second : Machine} (alike : first.Alike second) :
    second.appearance = first.appearance := by
  have reports : (fun thrown => Report.describe thrown second) =
      fun thrown => Report.describe thrown first :=
    funext alike.describe
  obtain ⟨recent, agrees, rfl⟩ := alike
  have entries : recent.last = first.recent.last := funext fun count => (agrees.last count).symm
  unfold Machine.appearance
  rw [reports, entries]
  rfl

/-- An observer that knows of the machine only what it shows. -/
def Devices.Discreet (devices : Devices Host) : Prop :=
  ∀ trace, devices.trace = some trace → ∀ (first second : Machine) (observed : Observation),
    first.appearance = second.appearance → trace first observed = trace second observed

theorem Devices.Discreet.correspond {devices : Devices Host} (discreet : devices.Discreet) :
    devices.Correspond devices Eq where
  inform := by
    rintro first second address host _ alike rfl
    have same : devices.inform second address host = devices.inform first address host := by
      unfold Devices.inform
      cases given : devices.trace with
      | none => rfl
      | some trace =>
        have observed : Action.observation second address (second.memory.cellOrZero address) =
            Action.observation first address (first.memory.cellOrZero address) := by
          obtain ⟨recent, -, rfl⟩ := alike
          rfl
        simp only [observed, discreet trace given _ _ _ alike.appearance]
    rw [same]
    exact .refl _
  print := by
    rintro value host _ rfl
    exact .refl _

/-- What a command shows: what it returned or raised, or nothing yet if it is a run that goes on;
the machine as it then is; and the host, which holds whatever the devices were told. -/
structure Shown (Host : Type) where
  outcome : Option (Except Thrown Answer)
  appearance : Appearance
  host : Host

namespace Command

/-- What a command returned or raised. -/
def outcome : EStateM.Result Thrown (Session Host) Answer → Except Thrown Answer
  | .ok answer _ => .ok answer
  | .error thrown _ => .error thrown

/-- Where a run stands that is not over within its turns. -/
def standing (devices : Devices Host) (session : Session Host) : Command → Session Host
  | .run turns => (EightBit.run devices turns session).session
  | _ => session

def shown (outcome : Option (Except Thrown Answer)) (session : Session Host) : Shown Host :=
  ⟨outcome, session.machine.appearance, session.host⟩

/-- All that a sequence of commands shows, each with the devices then in place. Nothing follows a
run that goes on. -/
def observations : List (Devices Host × Command) → Session Host → List (Shown Host)
  | [], _ => []
  | (devices, command) :: rest, session =>
    match command.perform devices session with
    | none => [shown none (command.standing devices session)]
    | some result =>
      shown (some (outcome result)) (stateLeft result) :: observations rest (stateLeft result)

/-! ### Side by side -/

/-- What a command comes to on two sessions that cannot be told apart: on both sides it is not over
yet, or it ends in the same way; and they still cannot be told apart. -/
inductive SideBySide (devices : Devices Host) (command : Command)
    (first second : Session Host) : Prop
  | pending (stands : command.perform devices first = none)
      (mate : command.perform devices second = none)
      (sessions : (command.standing devices first).Related Eq (command.standing devices second))
  | ended {result other : EStateM.Result Thrown (Session Host) Answer}
      (returned : command.perform devices first = some result)
      (mate : command.perform devices second = some other)
      (matched : Matched (Session.Related Eq) result other)

end Command

namespace Machine.Alike

variable {first second : Machine}

theorem setPc (alike : first.Alike second) (target : Number) :
    { first with pc := target }.Alike { second with pc := target } := by
  obtain ⟨recent, agrees, rfl⟩ := alike
  exact ⟨recent, agrees, rfl⟩

theorem store (alike : first.Alike second) (storage : Storage) :
    { first with toStorage := storage }.Alike { second with toStorage := storage } := by
  obtain ⟨recent, agrees, rfl⟩ := alike
  exact ⟨recent, agrees, rfl⟩

theorem reset (alike : first.Alike second) : first.reset.Alike second.reset := by
  obtain ⟨recent, agrees, rfl⟩ := alike
  exact ⟨recent.forget, .forget first.recent recent, rfl⟩

/-- A load is accepted or refused on both sides. -/
theorem load (alike : first.Alike second) (program : List UInt8) :
    Matched Machine.Alike (Machine.load program first) (Machine.load program second) := by
  obtain ⟨recent, agrees, rfl⟩ := alike
  rw [load_apply, load_apply]
  cases first.memory.clear.load program (.ofNat 0) with
  | error fault => exact .error ⟨recent, agrees, rfl⟩
  | ok memory => exact .ok ⟨recent.forget, .forget first.recent recent, rfl⟩

end Machine.Alike

namespace Command

theorem sideBySide {devices : Devices Host} (discreet : devices.Discreet) (command : Command)
    {first second : Session Host} (sessions : first.Related Eq second) :
    SideBySide devices command first second := by
  have alike := sessions.machine
  cases command with
  | step =>
    refine .ended rfl rfl ?_
    have taken := step_matched discreet.correspond sessions
    generalize EightBit.step devices first = result at taken
    generalize EightBit.step devices second = other at taken
    cases taken with
    | ok states => exact .ok states
    | error states => exact .error states
  | run turns =>
    have courses := run_matched discreet.correspond turns sessions
    generalize ran : EightBit.run devices turns first = course at courses
    generalize matching : EightBit.run devices turns second = mate at courses
    cases courses with
    | @halted after other states =>
      have same : stepsTaken second.machine other.machine =
          stepsTaken first.machine after.machine := by
        unfold stepsTaken
        rw [alike.steps, states.machine.steps]
      refine .ended (by rw [perform, ran]; rfl) (by rw [perform, matching, ofRun, same]) ?_
      exact .ok states
    | failed states =>
      exact .ended (by rw [perform, ran]; rfl) (by rw [perform, matching]; rfl) (.error states)
    | underway states =>
      refine .pending (by rw [perform, ran]; rfl) (by rw [perform, matching]; rfl) ?_
      rw [standing, standing, ran, matching]
      exact states
  | reset => exact .ended rfl rfl (.ok ⟨alike.reset, sessions.host⟩)
  | load program =>
    refine .ended rfl rfl ?_
    have loaded := alike.load program
    generalize Machine.load program first.machine = result at loaded
    generalize Machine.load program second.machine = other at loaded
    cases loaded with
    | ok states => exact .ok ⟨states, sessions.host⟩
    | error states => exact .error ⟨states, sessions.host⟩
  | setPc target =>
    exact .ended rfl rfl (.ok ⟨alike.setPc target, sessions.host⟩)
  | edit change =>
    refine .ended rfl rfl ?_
    unfold Action.onStorage
    rw [alike.storage]
    cases change.apply first.machine.toStorage with
    | error fault storage => exact .error ⟨alike.store storage, sessions.host⟩
    | ok answer storage => exact .ok ⟨alike.store storage, sessions.host⟩

theorem outcome_of_matched {result other : EStateM.Result Thrown (Session Host) Answer}
    (matched : Matched (Session.Related Eq) result other) :
    outcome result = outcome other ∧ (stateLeft result).Related Eq (stateLeft other) := by
  cases matched with
  | ok states => exact ⟨rfl, states⟩
  | error states => exact ⟨rfl, states⟩

theorem shown_eq {first second : Session Host} (sessions : first.Related Eq second)
    (outcome : Option (Except Thrown Answer)) : shown outcome first = shown outcome second := by
  unfold shown
  rw [sessions.machine.appearance, sessions.host]

/-- Sessions that cannot be told apart show the same under every sequence of commands. -/
theorem observations_eq {later : List (Devices Host × Command)}
    (discreet : ∀ entry ∈ later, entry.1.Discreet) {first second : Session Host}
    (sessions : first.Related Eq second) :
    observations later first = observations later second := by
  induction later generalizing first second with
  | nil => rfl
  | cons entry rest inductionHypothesis =>
    obtain ⟨devices, command⟩ := entry
    rw [observations, observations]
    cases sideBySide (discreet _ List.mem_cons_self) command sessions with
    | pending stands mate sessions =>
      simp only [stands, mate, shown_eq sessions]
    | ended returned mate matched =>
      obtain ⟨answers, sessions⟩ := outcome_of_matched matched
      have onward := inductionHypothesis
        (fun entry member => discreet entry (List.mem_cons_of_mem _ member)) sessions
      simp only [returned, mate, answers, shown_eq sessions, onward]

end Command

/-! ### Histories keep the size of memory -/

theorem Memory.size_write {memory after : Memory} {address value : Number}
    (written : memory.write address value = .ok after) : after.size = memory.size := by
  unfold write at written
  cases located : memory.locate address .write with
  | error fault =>
    rw [located] at written
    cases written
  | ok index =>
    rw [located] at written
    cases written
    exact Array.size_set index.isLt

theorem Memory.size_load {memory after : Memory} {data : List UInt8} {offset : Number}
    (placed : memory.load data offset = .ok after) : after.size = memory.size := by
  unfold load at placed
  simp only at placed
  split at placed
  · cases placed
  · split at placed
    · cases placed
    · cases placed
      exact size_overlay _ _ _

theorem Storage.size_push (value : Number) (storage : Storage) :
    (stateLeft (push value storage)).memory.size = storage.memory.size := by
  rw [push_apply]
  unfold guarded
  cases firstFault storage.pushChecks with
  | some fault => rfl
  | none => exact Memory.size_assign _ _ _

theorem Storage.memory_pop (storage : Storage) :
    (stateLeft (pop storage)).memory = storage.memory := by
  rw [pop_apply]
  unfold guarded
  cases firstFault storage.popChecks <;> rfl

/-- An attempt that fails leaves storage alone; otherwise what follows decides. -/
theorem Storage.size_ofExcept_bind {α β : Type} {storage : Storage} {attempted : Except Fault α}
    {next : α → EStateM Fault Storage β}
    (kept : ∀ value, attempted = .ok value →
      (stateLeft (next value storage)).memory.size = storage.memory.size) :
    (stateLeft ((MonadExcept.ofExcept attempted >>= next) storage)).memory.size =
      storage.memory.size := by
  cases attempted with
  | error fault => rfl
  | ok value => exact kept value rfl

theorem Edit.size_apply (change : Edit) (storage : Storage) :
    (stateLeft (change.apply storage)).memory.size = storage.memory.size := by
  cases change with
  | setRegister index value => exact Storage.size_ofExcept_bind fun _ _ => rfl
  | setFlags value | setStackPointer value | resetRegisters => rfl
  | write address value =>
    exact Storage.size_ofExcept_bind fun _ written => Memory.size_write written
  | place data offset =>
    exact Storage.size_ofExcept_bind fun _ placed => Memory.size_load placed
  | clear => exact Memory.size_blank _
  | push value =>
    have left := stateLeft_bind_pure (Storage.push value) (fun _ => Answer.done) storage
    exact (congrArg (Memory.size ∘ Storage.memory) left).trans (Storage.size_push value storage)
  | pop =>
    have left := stateLeft_bind_pure Storage.pop Answer.value storage
    exact congrArg Memory.size ((congrArg Storage.memory left).trans (Storage.memory_pop storage))

namespace Command

theorem stateLeft_ofStep (result : EStateM.Result Thrown (Session Host) Flow) :
    stateLeft (ofStep result) = stateLeft result := by
  cases result <;> rfl

theorem stateLeft_of_ofRun {before : Machine} {course : Course Host}
    {result : EStateM.Result Thrown (Session Host) Answer}
    (ended : ofRun before course = some result) : stateLeft result = course.session := by
  cases course with
  | halted | failed =>
    cases ended
    rfl
  | underway => cases ended

/-- A run leaves memory as large as it was, wherever it ended or stands. -/
theorem size_run (devices : Devices Host) (turns : Nat) (session : Session Host) :
    (EightBit.run devices turns session).session.machine.memory.size =
      session.machine.memory.size :=
  run_induction
    (motive := fun reached : Session Host =>
      reached.machine.memory.size = session.machine.memory.size)
    (fun reached kept => (step_size devices reached).trans kept) id rfl turns

theorem size_perform {devices : Devices Host} {session : Session Host} {command : Command}
    {result : EStateM.Result Thrown (Session Host) Answer}
    (performed : command.perform devices session = some result) :
    (stateLeft result).machine.memory.size = session.machine.memory.size := by
  cases command with
  | step =>
    cases performed
    rw [stateLeft_ofStep]
    exact step_size devices session
  | run turns =>
    rw [stateLeft_of_ofRun performed]
    exact size_run devices turns session
  | reset | setPc target =>
    cases performed
    rfl
  | load program =>
    cases performed
    rw [Machine.load_apply]
    cases placed : session.machine.memory.clear.load program (.ofNat 0) with
    | error fault => exact Memory.size_blank _
    | ok memory => exact (Memory.size_load placed).trans (Memory.size_blank _)
  | edit change =>
    cases performed
    rw [Action.stateLeft_onStorage]
    exact change.size_apply session.machine.toStorage

theorem size_performAll {history : List (Devices Host × Command)} {first last : Session Host}
    (performed : performAll history first = some last) :
    last.machine.memory.size = first.machine.memory.size :=
  performAll_induction
    (motive := fun session : Session Host =>
      session.machine.memory.size = first.machine.memory.size)
    (fun _ _ _ _ ended same => (size_perform ended).trans same) rfl performed

end Command

/-! ### Loading -/

theorem Memory.size_le_of_ofSize {size : Number} {memory : Memory}
    (made : ofSize size = .ok memory) : memory.size ≤ room := by
  unfold ofSize at made
  split at made
  · cases made
  · split at made
    · split at made
      · cases made
        exact (size_blank _).symm ▸ ‹_›
      · cases made
    · cases made

/-- Loaded with the same program, machines with memories of one size cannot be told apart. -/
theorem Machine.loaded_alike {first second : Machine}
    (size : second.memory.size = first.memory.size) (program : List UInt8) :
    (first.loaded program).Alike (second.loaded program) := by
  have cleared : second.memory.clear = first.memory.clear := congrArg Memory.blank size
  refine ⟨second.recent.forget, .forget first.recent second.recent, ?_⟩
  unfold loaded
  rw [cleared]

/-- After a load nothing shows what a machine has been through: every later command has on it the
outcome that it has on a new machine loaded with the same program. -/
theorem load_erases_history {Past : Type} (size : Number) (memory : Memory)
    (made : Memory.ofSize size = .ok memory) (history : List (Devices Past × Command))
    (past : Past) (reached : Session Past)
    (performed : Command.performAll history { machine := .create memory, host := past } =
      some reached)
    (program : List UInt8) (fits : program.length ≤ memory.size) (host : Host)
    (later : List (Devices Host × Command)) (discreet : ∀ entry ∈ later, entry.1.Discreet) :
    ∃ reloaded fresh, Machine.load program reached.machine = .ok () reloaded ∧
      Machine.load program (.create memory) = .ok () fresh ∧
      reloaded.appearance = fresh.appearance ∧
      Command.observations later { machine := reloaded, host } =
        Command.observations later { machine := fresh, host } := by
  have kept : reached.machine.memory.size = memory.size := Command.size_performAll performed
  have small : program.length < 2 ^ 53 := by
    have bound := Memory.size_le_of_ofSize made
    unfold Memory.room at bound
    omega
  have alike : (reached.machine.loaded program).Alike ((Machine.create memory).loaded program) :=
    Machine.loaded_alike kept.symm program
  exact ⟨_, _, Machine.load_of_fits (kept.symm ▸ fits) small, Machine.load_of_fits fits small,
    alike.appearance.symm, Command.observations_eq discreet ⟨alike, rfl⟩⟩

/-- Devices that write down all they are told: what is about to execute, and what is printed. -/
def scribes : Devices (List Observation × List String) where
  trace := some fun _ observed => modify fun written => (written.1 ++ [observed], written.2)
  output line := modify fun written => (written.1, written.2 ++ [line])

theorem scribes_discreet : scribes.Discreet := by
  intro trace given first second observed _
  cases given
  rfl

/-- A program is loaded and run to its end, a cell is written, and a program that does not fit is
refused. -/
def eventful : List (Devices Unit × Command) :=
  [(silentDevices, .load [0x82, 0, 4, 0x82, 1, 5, 0x01]), (silentDevices, .run 3),
    (silentDevices, .edit (.write (.ofNat 7) (.ofNat 9))),
    (silentDevices, .load [0, 0, 0, 0, 0, 0, 0, 0, 0])]

/-- The history has left entries in the log. After a load they are gone, and the scribes write down
the same of a program that prints as on a new machine. -/
theorem eventful_erased :
    ∃ reached reloaded fresh,
      Command.performAll eventful { machine := .create (.blank 8), host := () } = some reached ∧
      reached.machine.recent.last (.ofNat 8) = [0, 3, 6] ∧
      Machine.load [0x47, 0, 0x01] reached.machine = .ok () reloaded ∧
      Machine.load [0x47, 0, 0x01] (.create (.blank 8)) = .ok () fresh ∧
      reloaded.appearance = fresh.appearance ∧
      Command.observations [(scribes, .step), (scribes, .run 1)] ⟨reloaded, [], []⟩ =
        Command.observations [(scribes, .step), (scribes, .run 1)] ⟨fresh, [], []⟩ := by
  have log : (Command.performAll eventful { machine := .create (.blank 8), host := () }).any
      (fun reached => reached.machine.recent.last (.ofNat 8) = [0, 3, 6]) = true := by
    decide +kernel
  obtain ⟨reached, performed, entries⟩ := (Option.any_eq_true _ _).mp log
  have discreet : ∀ entry ∈ [(scribes, Command.step), (scribes, .run 1)], entry.1.Discreet := by
    intro entry member
    simp only [List.mem_cons, List.not_mem_nil, or_false] at member
    rcases member with rfl | rfl <;> exact scribes_discreet
  obtain ⟨reloaded, fresh, accepted, again, look, same⟩ :=
    load_erases_history (.ofNat 8) (.blank 8) rfl eventful () reached performed
      [0x47, 0, 0x01] (by decide) ([], []) [(scribes, .step), (scribes, .run 1)] discreet
  exact ⟨reached, reloaded, fresh, performed, of_decide_eq_true entries, accepted, again, look,
    same⟩

end EightBit
