/-
Running the machine. A run has no bound of its own, so it takes a number of turns and says whether
it has ended within them.
-/

import EightBit.Machine.Step

namespace EightBit

variable {Host : Type}

/-- Where a run stands: it has ended, by a halt or a failure, or its turns are spent. -/
inductive Course (Host : Type) where
  | halted (session : Session Host)
  | failed (thrown : Thrown) (session : Session Host)
  | underway (session : Session Host)

/-- Steps until the machine halts or fails, for a number of turns. -/
def stepsUntilEnd (devices : Devices Host) : Nat → Session Host → Course Host
  | 0, session => .underway session
  | turns + 1, session =>
    match step devices session with
    | .ok .halt after => .halted after
    | .ok .proceed after => stepsUntilEnd devices turns after
    | .error thrown after => .failed thrown after

/-- Runs the loaded program. Without one the machine halts at once. -/
def run (devices : Devices Host) (turns : Nat) (session : Session Host) : Course Host :=
  if session.machine.isLoaded then stepsUntilEnd devices turns session
  else .halted session.halt

/-- How many steps a machine has counted between two states of one run. -/
def stepsTaken (before after : Machine) : Nat :=
  after.steps - before.steps

/-- Steps up to a number of times and stops at the first halt. -/
def stepMany (devices : Devices Host) : Nat → Action Host Flow
  | 0, session => .ok .proceed session
  | remaining + 1, session =>
    match step devices session with
    | .ok .halt after => .ok .halt after
    | .ok .proceed after => stepMany devices remaining after
    | .error thrown after => .error thrown after

end EightBit
