import RelayLadder.Engine.Request
import RelayLadder.Main
import RelayLadder.Proofs.Instruction.Effect
import RelayLadder.Proofs.Engine.Step
import RelayLadder.Proofs.Engine.Control
import RelayLadder.Proofs.Engine.Visibility
import RelayLadder.Proofs.Engine.Reference
import RelayLadder.Proofs.Engine.Synchrony
import RelayLadder.Proofs.Engine.Scan
import RelayLadder.Proofs.Engine.Leftover
import RelayLadder.Proofs.Engine.Endurance
import RelayLadder.Proofs.Chain.Basic
import RelayLadder.Proofs.Chain.Grammar
import RelayLadder.Proofs.Chain.Evaluation
import RelayLadder.Proofs.Engine.Coherence
import RelayLadder.Proofs.Engine.DeadCode
import RelayLadder.Proofs.Engine.Rollback
import RelayLadder.Proofs.Engine.Unfinished
import RelayLadder.Proofs.Engine.Latch
import RelayLadder.Proofs.Engine.Atomic
import RelayLadder.Proofs.Bench.Run
import RelayLadder.Proofs.Engine.Cone
import RelayLadder.Proofs.Engine.Forced
import RelayLadder.Proofs.TruthTable.Complete
import RelayLadder.Proofs.Numeral.Value
import RelayLadder.Proofs.Numeral.Digits
import RelayLadder.Proofs.Source.Grammar
import RelayLadder.Proofs.Source.Acceptance
import RelayLadder.Proofs.Source.Numbering
import RelayLadder.Proofs.Source.RoundTrip
import RelayLadder.Proofs.Source.Diagnostics
import RelayLadder.Proofs.Engine.Termination
import RelayLadder.Proofs.Engine.Limits
import RelayLadder.Proofs.Bench.Assignment
import RelayLadder.Proofs.Engine.PowerCycle
import RelayLadder.Proofs.Dump.Layout
import RelayLadder.Proofs.Dump.Decode
import RelayLadder.Proofs.Stimulus.Flips
import RelayLadder.Proofs.Stimulus.Coupling
import RelayLadder.Proofs.Command.Values
import RelayLadder.Proofs.Source.Joining
import RelayLadder.Proofs.Command.Rounds
import RelayLadder.Proofs.Text.Columns
import RelayLadder.Proofs.Program.Listing
import RelayLadder.Proofs.TruthTable.Alignment
