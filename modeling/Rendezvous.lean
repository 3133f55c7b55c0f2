import Rendezvous.Pipeline
import Rendezvous.Proofs.Architecture.Balance
import Rendezvous.Proofs.Architecture.Calls
import Rendezvous.Proofs.Architecture.Mismatches
import Rendezvous.Proofs.Architecture.Orphans
import Rendezvous.Proofs.Architecture.Ownership
import Rendezvous.Proofs.Arithmetic.Evaluation
import Rendezvous.Proofs.Arithmetic.Exactness
import Rendezvous.Proofs.Arithmetic.Overflow
import Rendezvous.Proofs.Arithmetic.Parsing
import Rendezvous.Proofs.Arithmetic.Rejection
import Rendezvous.Proofs.Arithmetic.Substitution
import Rendezvous.Proofs.Arithmetic.Viability
import Rendezvous.Proofs.Check.Connectors
import Rendezvous.Proofs.Check.Expressions
import Rendezvous.Proofs.Check.Gate
import Rendezvous.Proofs.Check.Machines
import Rendezvous.Proofs.Check.Order
import Rendezvous.Proofs.Component.Closure
import Rendezvous.Proofs.Config.Documents
import Rendezvous.Proofs.Glue.Coherence
import Rendezvous.Proofs.Glue.Document
import Rendezvous.Proofs.Glue.Interactions
import Rendezvous.Proofs.Glue.Keys
import Rendezvous.Proofs.Glue.Order
import Rendezvous.Proofs.Glue.Ports
import Rendezvous.Proofs.Guard.Cursors
import Rendezvous.Proofs.Guard.Descent
import Rendezvous.Proofs.Guard.Locations
import Rendezvous.Proofs.Guard.Lossless
import Rendezvous.Proofs.Guard.Operands
import Rendezvous.Proofs.Guard.Operators
import Rendezvous.Proofs.Guard.Partition
import Rendezvous.Proofs.Guard.Printing
import Rendezvous.Proofs.Guard.Reading
import Rendezvous.Proofs.Harness.Counts
import Rendezvous.Proofs.Harness.Sources
import Rendezvous.Proofs.Pipeline.Checked
import Rendezvous.Proofs.Pipeline.Effects
import Rendezvous.Proofs.Pipeline.Files
import Rendezvous.Proofs.Pipeline.Names
import Rendezvous.Proofs.Staging.Disk
import Rendezvous.Proofs.Staging.Scripts
import Rendezvous.Proofs.Store.Documents
import Rendezvous.Proofs.Store.Histories
import Rendezvous.Proofs.Store.Snapshots
import Rendezvous.Proofs.Store.Writes
import Rendezvous.Proofs.Text.Literals
import Rendezvous.Proofs.Trace
