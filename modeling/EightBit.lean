import EightBit.CommandLine.PictureTool
import EightBit.CommandLine.Run
import EightBit.CommandLine.TraceTool
import EightBit.Main
import EightBit.Proofs.Arguments
import EightBit.Proofs.Atomicity
import EightBit.Proofs.BoundedStack
import EightBit.Proofs.Checksum
import EightBit.Proofs.CommandOutcome
import EightBit.Proofs.Comments
import EightBit.Proofs.Comparison
import EightBit.Proofs.Confinement
import EightBit.Proofs.FaultReports
import EightBit.Proofs.FreshStart
import EightBit.Proofs.GivenLimits
import EightBit.Proofs.Grammar
import EightBit.Proofs.InstructionSet
import EightBit.Proofs.ListedBytes
import EightBit.Proofs.LocalChanges
import EightBit.Proofs.LogHistory
import EightBit.Proofs.ModularArithmetic
import EightBit.Proofs.Pictures
import EightBit.Proofs.RefusedPrograms
import EightBit.Proofs.SavedValues
import EightBit.Proofs.StackWidth
import EightBit.Proofs.StepLimit
import EightBit.Proofs.StraightLine
import EightBit.Proofs.Termination
import EightBit.Proofs.TraceLines
import EightBit.Proofs.Tracing
import EightBit.Proofs.Writing
