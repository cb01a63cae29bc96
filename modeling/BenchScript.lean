import BenchScript.Engine.Call
import BenchScript.Engine.Evaluator
import BenchScript.Files.Memory
import BenchScript.Host.Transcript
import BenchScript.Launch.Script
import BenchScript.Main
import BenchScript.Proofs.Evaluation
import BenchScript.Proofs.Framing
import BenchScript.Proofs.Jumps
import BenchScript.Proofs.Loading
import BenchScript.Proofs.Sealing
import BenchScript.Proofs.Termination
import BenchScript.Wire.Link
import BenchScript.Proofs.Passages
import BenchScript.Proofs.Episodes
import BenchScript.Proofs.Cancellation
import BenchScript.Proofs.Reloading
import BenchScript.Proofs.Pairing
import BenchScript.Proofs.Partition
import BenchScript.Proofs.Exchanges
import BenchScript.Proofs.Traffic
import BenchScript.Proofs.Invariants
import BenchScript.Proofs.Digits
import BenchScript.Proofs.Newlines
import BenchScript.Proofs.Shapes
import BenchScript.Proofs.Blindness
import BenchScript.Proofs.Twins
import BenchScript.Proofs.Recognition
import BenchScript.Proofs.Dispatch
import BenchScript.Proofs.Checksums
import BenchScript.Proofs.Standins
import BenchScript.Proofs.Rehearsal
import BenchScript.Proofs.Spelling
import BenchScript.Proofs.Substitution
import BenchScript.Proofs.Conditions
import BenchScript.Proofs.Dictation
import BenchScript.Proofs.Gates
import BenchScript.Proofs.Effects
import BenchScript.Proofs.Happenings
import BenchScript.Proofs.Mishaps
import BenchScript.Proofs.Reports
import BenchScript.Proofs.Mending
import BenchScript.Proofs.Events
import BenchScript.Proofs.Lockstep
import BenchScript.Proofs.Appending
import BenchScript.Proofs.Captions
import BenchScript.Proofs.Definitions
import BenchScript.Proofs.Answering
import BenchScript.Proofs.Hexadecimal
import BenchScript.Proofs.Queue
import BenchScript.Proofs.Targets
import BenchScript.Proofs.Words
import BenchScript.Proofs.Tampering
import BenchScript.Proofs.Scanning
import BenchScript.Proofs.Nodes
import BenchScript.Proofs.Documents
import BenchScript.Proofs.Numerals
import BenchScript.Proofs.Configuration
import BenchScript.Proofs.Requests
