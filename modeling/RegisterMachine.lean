import RegisterMachine.Machine.Samples
import RegisterMachine.Main
import RegisterMachine.Proofs.Files.Invariant
import RegisterMachine.Proofs.Instruction.Wire
import RegisterMachine.Proofs.Listing.Reassembly
import RegisterMachine.Proofs.Listing.Expressible
import RegisterMachine.Proofs.Machine.ProcessTable
import RegisterMachine.Proofs.Files.Atlas
import RegisterMachine.Proofs.Machine.Effect
import RegisterMachine.Proofs.Machine.Agreement
import RegisterMachine.Proofs.Machine.Foreground
import RegisterMachine.Proofs.Machine.Visit
import RegisterMachine.Proofs.Machine.Abreast
import RegisterMachine.Proofs.Machine.Bystanders
import RegisterMachine.Proofs.Machine.Interleaving
import RegisterMachine.Proofs.Machine.Drivers
import RegisterMachine.Proofs.Machine.Fuel
import RegisterMachine.Proofs.Machine.Checked
import RegisterMachine.Proofs.Machine.InRange
import RegisterMachine.Proofs.Console.Output
import RegisterMachine.Proofs.Machine.Faults
import RegisterMachine.Proofs.Machine.SweepReport
import RegisterMachine.Proofs.Machine.Course
import RegisterMachine.Proofs.Machine.Stall
import RegisterMachine.Proofs.Machine.Forward
import RegisterMachine.Proofs.Machine.Footprint
import RegisterMachine.Proofs.Machine.Stack
import RegisterMachine.Proofs.Machine.Halted
import RegisterMachine.Proofs.Listing.Reading
import RegisterMachine.Proofs.Listing.Labels
import RegisterMachine.Proofs.Listing.Verdict
import RegisterMachine.Proofs.Listing.Targets
import RegisterMachine.Proofs.Listing.Placement
import RegisterMachine.Proofs.Listing.Layout
import RegisterMachine.Proofs.Instruction.Recognition
import RegisterMachine.Proofs.Instruction.Numbers
import RegisterMachine.Proofs.Machine.Learning
import RegisterMachine.Proofs.Machine.Exactness
import RegisterMachine.Proofs.Machine.Remainder
import RegisterMachine.Proofs.Machine.PointerViews
import RegisterMachine.Proofs.Console.Idle
import RegisterMachine.Proofs.Console.FilePrograms
import RegisterMachine.Proofs.Console.TickCounts
import RegisterMachine.Proofs.Files.PathText
import RegisterMachine.Proofs.Files.Creation
import RegisterMachine.Proofs.Config
import RegisterMachine.Proofs.Listing.Seams
import RegisterMachine.Proofs.Log
import RegisterMachine.Proofs.Memory
