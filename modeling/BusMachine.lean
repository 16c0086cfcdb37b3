import BusMachine.Main
import BusMachine.Command.Program
import BusMachine.Datapath.Bench
import BusMachine.Machine.Host
import BusMachine.Proofs.Assembly.History
import BusMachine.Proofs.Assembly.Layout
import BusMachine.Proofs.Assembly.Parsing
import BusMachine.Proofs.Instruction.Encoding
import BusMachine.Proofs.Machine.AssembledRuns
import BusMachine.Proofs.Machine.CallStack
import BusMachine.Proofs.Machine.InstructionSet
import BusMachine.Proofs.Machine.Invariant
import BusMachine.Proofs.Machine.Isolation
import BusMachine.Proofs.Machine.Loading
import BusMachine.Proofs.Assembly.Disassembly
import BusMachine.Proofs.Machine.Agreement
import BusMachine.Proofs.Machine.Tracing
import BusMachine.Proofs.Files.Newlines
import BusMachine.Proofs.Files.Executables
import BusMachine.Proofs.Assembly.Failures
import BusMachine.Proofs.Command.Pipelines
import BusMachine.Proofs.Machine.BoundedRuns
import BusMachine.Proofs.Machine.Startup
import BusMachine.Proofs.Assembly.TokenStream
import BusMachine.Proofs.Machine.ForwardRuns
import BusMachine.Proofs.Assembly.Concatenation
import BusMachine.Proofs.Assembly.Symbols
import BusMachine.Proofs.Text.IntegerText
import BusMachine.Proofs.Assembly.Listing
import BusMachine.Proofs.Assembly.Resolution
import BusMachine.Proofs.Text.JoinedExecutables
import BusMachine.Proofs.Instruction.Walk
import BusMachine.Proofs.Datapath.BankHistory
import BusMachine.Proofs.Datapath.Dump
