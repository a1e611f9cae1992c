import Conveyor.Destination.Script
import Conveyor.Main
import Conveyor.Pipeline.Sequence
import Conveyor.Queue
import Conveyor.Vault
import Conveyor.Proofs.Run.Attempt
import Conveyor.Proofs.Run.Trail
import Conveyor.Proofs.Outcome
import Conveyor.Proofs.Pipeline.Sound
import Conveyor.Proofs.Run.Completion
import Conveyor.Proofs.Log.Memory
import Conveyor.Proofs.Run.Journal
import Conveyor.Proofs.Run.RetryCount
import Conveyor.Proofs.Log.Ledger
import Conveyor.Proofs.Binary64.Rounding
import Conveyor.Proofs.Binary64.Shortest
import Conveyor.Proofs.Json.Digits
import Conveyor.Proofs.Json.Escape
import Conveyor.Proofs.Json.Numeral
import Conveyor.Proofs.Json.RoundTrip
import Conveyor.Proofs.Json.Canonical
import Conveyor.Proofs.Schema.Document
import Conveyor.Proofs.Pipeline.RoundTrip
import Conveyor.Proofs.Condition
import Conveyor.Proofs.Pipeline.Reload
import Conveyor.Proofs.Run.Reload
import Conveyor.Proofs.Pipeline.Valid
import Conveyor.Proofs.Binary64.Order
import Conveyor.Proofs.Pipeline.Planned
import Conveyor.Proofs.Run.Refusal
import Conveyor.Proofs.Store
import Conveyor.Proofs.Graph.Compilation
import Conveyor.Proofs.Graph.Redrawing
import Conveyor.Proofs.Graph.Boundary
import Conveyor.Proofs.Value.Alike
import Conveyor.Proofs.Pipeline.Alike
import Conveyor.Proofs.Json.Legible
import Conveyor.Proofs.Schema.Legible
import Conveyor.Proofs.Pipeline.Legible
import Conveyor.Proofs.Arena
import Conveyor.Proofs.Worker.Record
import Conveyor.Proofs.Worker.Alone
import Conveyor.Proofs.Run.Insertion
import Conveyor.Proofs.Pipeline.Edit
import Conveyor.Proofs.Store.History
import Conveyor.Proofs.Log.Agreement
import Conveyor.Proofs.Vault
import Conveyor.Proofs.Run.Policy
import Conveyor.Proofs.Run.Itinerary
import Conveyor.Proofs.Queue.Delivery
import Conveyor.Proofs.Run.Renaming
import Conveyor.Proofs.Run.Limit
import Conveyor.Proofs.Run.Forward
import Conveyor.Proofs.Run.Binding
import Conveyor.Proofs.Statement.Alignment
import Conveyor.Proofs.Statement.Injectivity
import Conveyor.Proofs.Statement.Complete
import Conveyor.Proofs.Run.Exchange
import Conveyor.Proofs.Statement.Conversion
import Conveyor.Proofs.Mapping.Fault
import Conveyor.Proofs.Condition.Verdict
import Conveyor.Proofs.Condition.Duality
import Conveyor.Proofs.Mapping.Resolution
import Conveyor.Proofs.Mapping.Suggestion
import Conveyor.Proofs.Mapping.Coercion
import Conveyor.Proofs.Mapping.Address
import Conveyor.Proofs.Template.Embedding
import Conveyor.Proofs.Log.Queries
import Conveyor.Proofs.Destination.Header
import Conveyor.Proofs.Graph.Composition
import Conveyor.Proofs.Graph.Textual
import Conveyor.Proofs.Run.Leniency
import Conveyor.Proofs.Run.Pace
import Conveyor.Proofs.Run.Listing
import Conveyor.Proofs.Mapping.DateFormat
import Conveyor.Proofs.Log.Chronology
import Conveyor.Proofs.Pipeline.Flaws
import Conveyor.Proofs.Mapping.Rounding
import Conveyor.Proofs.Run.Unlogged
