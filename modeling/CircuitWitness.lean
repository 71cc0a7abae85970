import CircuitWitness.Config.Toml
import CircuitWitness.Proofs.Acceptance
import CircuitWitness.Proofs.Alternates
import CircuitWitness.Proofs.CallStack
import CircuitWitness.Proofs.Counted
import CircuitWitness.Proofs.Diagnostics
import CircuitWitness.Proofs.Extraction
import CircuitWitness.Proofs.Forest
import CircuitWitness.Proofs.InputBlock
import CircuitWitness.Proofs.Leaves
import CircuitWitness.Proofs.Leftover
import CircuitWitness.Proofs.Protocol
import CircuitWitness.Proofs.Reclaim
import CircuitWitness.Proofs.Records
import CircuitWitness.Proofs.Refusal
import CircuitWitness.Proofs.Release
import CircuitWitness.Proofs.Sample.Audited
import CircuitWitness.Proofs.Sample.Interleaved
import CircuitWitness.Proofs.Sample.Placement
import CircuitWitness.Proofs.Scalar.Shift
import CircuitWitness.Proofs.Undeclared
import CircuitWitness.Proofs.Verdict
import CircuitWitness.Script.Session
import CircuitWitness.Proofs.Decimal.Binary64
