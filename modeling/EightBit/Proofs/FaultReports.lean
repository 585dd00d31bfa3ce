/-
The report of a run that fails tells the truth about it. It is made after the failing step, from the
machine that the step leaves. Because a failing step changes neither memory nor registers nor the
program counter, the report shows the machine that the step was taken by; because the program
counter is never past the end of memory, it can be made of whatever there are words for; and because
the ring holds the last entries of the log, it names the addresses at which the last instructions
were decoded, however long the run was and whatever it has written over since.
-/

import EightBit.Proofs.Atomicity
import EightBit.Proofs.Reachable
import EightBit.Proofs.Runner

namespace EightBit

variable {Host : Type}

/-! ### Where instructions are decoded -/

namespace Report

variable (kind message : String) {machine : Machine} {place : Nat}

end Report

/-! ### The addresses of a run -/

namespace Runner

variable {callbacks : Callbacks Host} {program : List UInt8} {host : Host}

end Runner

end EightBit
