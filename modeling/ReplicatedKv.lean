import ReplicatedKv.Application
import ReplicatedKv.Bytes
import ReplicatedKv.Commitment.Merkle
import ReplicatedKv.Commitment.StateRoot
import ReplicatedKv.Config
import ReplicatedKv.Decimal.Layout
import ReplicatedKv.Decimal.Shortest
import ReplicatedKv.Execution
import ReplicatedKv.Gas
import ReplicatedKv.Genesis
import ReplicatedKv.Genesis.Document
import ReplicatedKv.Hash.Blake3
import ReplicatedKv.Hash.Digest
import ReplicatedKv.Hash.Sha256
import ReplicatedKv.Json.Fault
import ReplicatedKv.Json.Number
import ReplicatedKv.Json.Quoted
import ReplicatedKv.Json.Reader
import ReplicatedKv.Json.Record
import ReplicatedKv.Json.Scan
import ReplicatedKv.Json.Skip
import ReplicatedKv.Receipt
import ReplicatedKv.Saturating
import ReplicatedKv.Store.Basic
import ReplicatedKv.Store.Entries
import ReplicatedKv.Store.Faulty
import ReplicatedKv.Store.Memory
import ReplicatedKv.Store.Overlay
import ReplicatedKv.Store.Partition
import ReplicatedKv.Text.Printable
import ReplicatedKv.Text.Quoted
import ReplicatedKv.Text.Utf8
import ReplicatedKv.Transaction
import ReplicatedKv.Wire.Field
import ReplicatedKv.Wire.Varint
import ReplicatedKv.Proofs.Text.Utf8
import ReplicatedKv.Proofs.Json.Tree
import ReplicatedKv.Proofs.Json.Strings
import ReplicatedKv.Proofs.Json.Skip
import ReplicatedKv.Proofs.Json.Fields
import ReplicatedKv.Proofs.Json.Shapes
import ReplicatedKv.Proofs.Json.Compact
import ReplicatedKv.Proofs.Genesis.Shapes
import ReplicatedKv.Proofs.Genesis.Document
import ReplicatedKv.Proofs.Wire.Grammar
import ReplicatedKv.Proofs.Transaction.Grammar
import ReplicatedKv.Proofs.Transaction.RoundTrip
import ReplicatedKv.Proofs.Commitment.Binding
import ReplicatedKv.Proofs.Store.Writes
import ReplicatedKv.Proofs.Execution.Block
import ReplicatedKv.Proofs.Execution.Memory
import ReplicatedKv.Proofs.Application.Calls
import ReplicatedKv.Proofs.Application.Log
import ReplicatedKv.Proofs.Application.Seeding
import ReplicatedKv.Proofs.Store.Backed
import ReplicatedKv.Proofs.Application.Atomicity
import ReplicatedKv.Proofs.Execution.Isolation
import ReplicatedKv.Proofs.Application.Admission
import ReplicatedKv.Proofs.Store.Changes
import ReplicatedKv.Proofs.Commitment.Content
import ReplicatedKv.Proofs.Application.Durability
import ReplicatedKv.Proofs.Commitment.TopDown
import ReplicatedKv.Proofs.Transaction.Concatenation
import ReplicatedKv.Proofs.Transaction.Containment
import ReplicatedKv.Proofs.Application.Lifecycle
import ReplicatedKv.Proofs.Application.Vocabulary
import ReplicatedKv.Proofs.Transaction.Shortest
import ReplicatedKv.Proofs.Transaction.Truncation
import ReplicatedKv.Proofs.Transaction.Nesting
import ReplicatedKv.Proofs.Execution.Gas
import ReplicatedKv.Proofs.Execution.Boundaries
import ReplicatedKv.Proofs.Execution.Reordering
import ReplicatedKv.Proofs.Store.History
import ReplicatedKv.Proofs.Commitment.Preimages
import ReplicatedKv.Proofs.Application.Resumption
import ReplicatedKv.Proofs.Genesis.Initialization
import ReplicatedKv.Proofs.Json.Texts
import ReplicatedKv.Proofs.Config.Document
import ReplicatedKv.Proofs.Text.Sequences
import ReplicatedKv.Proofs.Text.Rendering
import ReplicatedKv.Proofs.Json.Literals
import ReplicatedKv.Proofs.Json.StringAhead
import ReplicatedKv.Proofs.Json.Surroundings
import ReplicatedKv.Proofs.Genesis.Literals
