import Chronicle.Json.Document
import Chronicle.Filter.Wire
import Chronicle.Time.Rfc3339
import Chronicle.Text.Quoted
import Chronicle.Json.Decoder
import Chronicle.Event.Domain
import Chronicle.Query.Test
import Chronicle.Query.Statement
import Chronicle.Event.Snapshot
import Chronicle.Store.Config
import Chronicle.Todo.Event
import Chronicle.Sample.Probe
import Chronicle.Store.Schema
import Chronicle.Store.Metrics
import Chronicle.Store.Log
import Chronicle.Store.Projections
import Chronicle.Store.Intervention
import Chronicle.Client
import Chronicle.History.Flight
import Chronicle.History.Load
import Chronicle.Runner.Projection
import Chronicle.Runner.Validation
import Chronicle.Todo.Rules
import Chronicle.Sample.Collect
import Chronicle.Database.Workspace
import Chronicle.Proofs.Log.Races
import Chronicle.Proofs.Log.Growth
import Chronicle.Proofs.Runner.Validation
import Chronicle.Proofs.Runner.Resumption
import Chronicle.Proofs.Client.Writes
import Chronicle.Proofs.Runner.Effects
import Chronicle.Proofs.Client.Domain
import Chronicle.Proofs.Database.Order
import Chronicle.Proofs.Runner.Repetition
import Chronicle.Proofs.Database.Polling
import Chronicle.Proofs.Projections.Rows
import Chronicle.Proofs.Projections.Board
import Chronicle.Proofs.Filter.RoundTrip
import Chronicle.Proofs.Filter.Grammar
import Chronicle.Proofs.Query.Names
import Chronicle.Proofs.Query.Numbers
import Chronicle.Proofs.Client.Rejection
import Chronicle.Proofs.Log.Outside
import Chronicle.Proofs.Log.Unions
import Chronicle.Proofs.Runner.Saving
import Chronicle.Proofs.Query.Binding
import Chronicle.Proofs.Log.Latest
import Chronicle.Proofs.Projections.Updates
import Chronicle.Proofs.Runner.Stability
import Chronicle.Proofs.Runner.Previews
import Chronicle.Proofs.Json.Records
import Chronicle.Proofs.Todo.Codec
import Chronicle.Proofs.Todo.Items
import Chronicle.Proofs.Todo.Histories
import Chronicle.Proofs.Todo.Agreement
import Chronicle.Proofs.Todo.Limit
import Chronicle.Proofs.History.Sharing
import Chronicle.Proofs.Database.Schema
