/-
Running a program from start to end on a standard machine, with an optional limit on its steps. The
result holds all that the run leaves behind; the host may also watch it, line by line, as it goes.
-/

import EightBit.Checksum
import EightBit.Report
import EightBit.Machine.Run

namespace EightBit

variable {Host : Type}

/-- How a run ended. -/
inductive Reason where
  | halt
  | fail
  | timeout
  deriving DecidableEq, Repr

def Reason.word : Reason → String
  | .halt => "halt"
  | .fail => "fail"
  | .timeout => "timeout"

/-- What a run leaves behind. -/
structure RunRecord where
  steps : Nat
  reason : Reason
  message : Option String
  fault : Option Report
  output : Array String
  registers : Registers
  memory : Memory
  checksum : UInt32
  deriving DecidableEq, Repr

/-- What a host may want to be told: trace lines and printed lines. -/
structure Callbacks (Host : Type) where
  trace : Option (String → EStateM Thrown Host Unit)
  output : Option (String → EStateM Thrown Host Unit)

/-- The lines printed so far, beside the state of the host. -/
structure Recorder (Host : Type) where
  output : Array String
  host : Host

namespace Recorder

def onHost (action : EStateM Thrown Host Unit) : EStateM Thrown (Recorder Host) Unit :=
  fun recorder =>
    match action recorder.host with
    | .ok _ host => .ok () { recorder with host }
    | .error thrown host => .error thrown { recorder with host }

/-- Keeps a printed line. -/
def keep (line : String) : EStateM Thrown (Recorder Host) Unit :=
  modify fun recorder => { recorder with output := recorder.output.push line }

end Recorder

/-- The devices that keep printed lines and pass both kinds of lines on to the host. -/
def Callbacks.devices (callbacks : Callbacks Host) : Devices (Recorder Host) where
  trace := callbacks.trace.map fun trace machine observed =>
    Recorder.onHost (trace (machine.traceLine observed))
  output line := do
    Recorder.keep line
    match callbacks.output with
    | none => return ()
    | some output => Recorder.onHost (output line)

namespace Runner

/-- Why a run is over. -/
inductive Ending where
  | halt
  | fail (thrown : Thrown)
  | timeout
  deriving DecidableEq, Repr

/-- Where a run stands: it is over, or its turns are spent. -/
inductive Progress (Host : Type) where
  | over (ending : Ending) (session : Session (Recorder Host))
  | underway (session : Session (Recorder Host))

/-- A standard machine with the program loaded. -/
def start (program : List UInt8) (host : Host) : Except Fault (Session (Recorder Host)) :=
  match Machine.load program (.create (.blank Memory.standardSize)) with
  | .ok _ machine => .ok { machine, host := { output := #[], host } }
  | .error fault _ => .error fault

/-- Steps while fewer steps than the limit have been counted. -/
def stepsWithin (devices : Devices (Recorder Host)) (limit : Number) :
    Nat → Session (Recorder Host) → Progress Host
  | 0, session => .underway session
  | turns + 1, session =>
    if (Number.ofNat session.machine.steps).lt limit then
      match step devices session with
      | .ok .halt after => .over .halt after
      | .ok .proceed after => stepsWithin devices limit turns after
      | .error thrown after => .over (.fail thrown) after
    else .over .timeout session

/-- Where the run of the machine stands, when there is no limit. -/
def unlimited : Course (Recorder Host) → Progress Host
  | .halted after => .over .halt after
  | .failed thrown after => .over (.fail thrown) after
  | .underway after => .underway after

/-- Goes on with a run for a number of turns. A limit of zero or less is none. -/
def advance (callbacks : Callbacks Host) (limit : Number) (turns : Nat)
    (session : Session (Recorder Host)) : Progress Host :=
  if limit.le (.ofNat 0) then
    unlimited (run callbacks.devices turns session)
  else if session.machine.isLoaded then
    stepsWithin callbacks.devices limit turns session
  else .over .halt session

/-- What a machine leaves behind. -/
def leave (session : Session (Recorder Host)) (reason : Reason) (fault : Option Report) :
    RunRecord :=
  let machine := session.machine
  { steps := machine.steps
    reason
    message := fault.map (·.message)
    fault
    output := session.host.output
    registers := machine.registers
    memory := machine.memory
    checksum := Checksum.ofBytes machine.memory.toList }

/-- The result of a run that is over. A failure is described in it, unless that fails itself. -/
def conclude (ending : Ending) (session : Session (Recorder Host)) : Except Thrown RunRecord :=
  match ending with
  | .halt => .ok (leave session .halt none)
  | .timeout => .ok (leave session .timeout none)
  | .fail thrown => do
    let fault ← Report.describe thrown session.machine
    return leave session .fail (some fault)

/-- The result of a run and the state of its host, once it is over. -/
def concluded : Progress Host → Option (Except Thrown (RunRecord × Host))
  | .underway _ => none
  | .over ending after => some ((conclude ending after).map fun result => (result, after.host.host))

/-- Runs a program. `none` when it is not over after the given number of turns. -/
def execute (callbacks : Callbacks Host) (limit : Number) (turns : Nat) (program : List UInt8)
    (host : Host) : Option (Except Thrown (RunRecord × Host)) :=
  match start program host with
  | .error fault => some (.error (.fault fault))
  | .ok session => concluded (advance callbacks limit turns session)

end Runner

end EightBit
