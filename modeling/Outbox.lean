import Outbox.Broker.Http
import Outbox.Config.Handles
import Outbox.Main
import Outbox.Proofs.Store.History
import Outbox.Scenario.Loop
import Outbox.Scenario.Session
import Outbox.Store.Remote
import Outbox.Proofs.Store.Fencing
import Outbox.Proofs.Relay.Fleet
import Outbox.Proofs.Relay.NoLoss
import Outbox.Proofs.Relay.Exclusion
import Outbox.Proofs.Scenario.Quiet
import Outbox.Proofs.Table.Oldest
import Outbox.Proofs.Relay.TickImage
import Outbox.Proofs.Store.Consistency
import Outbox.Proofs.Store.Lifecycle
import Outbox.Proofs.Store.Attempts
import Outbox.Store.Outcome
import Outbox.Proofs.Sql.Condition
import Outbox.Proofs.Sql.Entries
import Outbox.Proofs.Sql.Schema
import Outbox.Proofs.Store.Requests
import Outbox.Proofs.Store.Agreement
import Outbox.Proofs.Store.Faithful
import Outbox.Proofs.Cleaner.Batches
import Outbox.Proofs.Relay.Rounds
import Outbox.Proofs.Store.Atomicity
import Outbox.Proofs.Relay.Backlog
import Outbox.Proofs.Relay.Course
import Outbox.Proofs.Relay.Backoff
import Outbox.Proofs.Admin.Outsiders
import Outbox.Proofs.Json.RoundTrip
import Outbox.Proofs.Json.Record
import Outbox.Proofs.Uuid
import Outbox.Proofs.Event.Payload
import Outbox.Proofs.Scenario.Watched
import Outbox.Proofs.Scenario.Pass
import Outbox.Proofs.Scenario.Machine
import Outbox.Proofs.Scenario.Signal
import Outbox.Proofs.Scenario.Vigil
import Outbox.Proofs.Scenario.Progress
import Outbox.Proofs.Scenario.Shutdown
import Outbox.Proofs.Relay.Tally
import Outbox.Proofs.Relay.Isolation
import Outbox.Proofs.Relay.Abandoned
import Outbox.Proofs.Cleaner.Interrupted
import Outbox.Proofs.Store.CountRange
import Outbox.Proofs.Table.Sweep
import Outbox.Proofs.Config.LookBack
import Outbox.Proofs.Toml.Spelling
import Outbox.Proofs.Toml.Integer
import Outbox.Proofs.Toml.Document
import Outbox.Proofs.Config.Rewrite
import Outbox.Proofs.Admin.Replays
import Outbox.Proofs.Admin.Secrets
import Outbox.Proofs.Broker.TopicAddress
import Outbox.Proofs.Config.Reload
import Outbox.Proofs.Store.Recording
import Outbox.Proofs.Config.Handles
import Outbox.Proofs.Config.Overlap
import Outbox.Proofs.Scenario.Polling
import Outbox.Proofs.Config.WorkerIds
import Outbox.Proofs.Json.Integer
import Outbox.Proofs.Store.Independence
import Outbox.Proofs.Admin.View
import Outbox.Proofs.Admin.Pages
