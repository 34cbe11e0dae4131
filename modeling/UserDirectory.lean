import UserDirectory.Access.Bearer
import UserDirectory.Access.Claims
import UserDirectory.Access.Error
import UserDirectory.Access.Mac
import UserDirectory.Access.Policy
import UserDirectory.Access.Token
import UserDirectory.Call.Context
import UserDirectory.Call.Exchange
import UserDirectory.Call.Handler
import UserDirectory.Call.Kind
import UserDirectory.Call.Metadata
import UserDirectory.Call.Program
import UserDirectory.Call.Running
import UserDirectory.Call.Script
import UserDirectory.Call.State
import UserDirectory.Call.Stream
import UserDirectory.Call.Timeout
import UserDirectory.Call.World
import UserDirectory.Json.Codec
import UserDirectory.Json.Node
import UserDirectory.Json.Reader
import UserDirectory.Json.Value
import UserDirectory.Lifecycle
import UserDirectory.Main
import UserDirectory.Service.Activity
import UserDirectory.Service.Batch
import UserDirectory.Service.Error
import UserDirectory.Service.Listing
import UserDirectory.Service.Method
import UserDirectory.Service.Request
import UserDirectory.Service.Single
import UserDirectory.Service.Status
import UserDirectory.Service.Sync
import UserDirectory.Settings
import UserDirectory.SortedMap
import UserDirectory.Store.Backend
import UserDirectory.Store.Error
import UserDirectory.Store.Fault
import UserDirectory.Store.Filter
import UserDirectory.Store.Memory
import UserDirectory.Store.Operation
import UserDirectory.Store.PageToken
import UserDirectory.Store.Relational.Engine
import UserDirectory.Store.Relational.Row
import UserDirectory.Store.Relational.Schema
import UserDirectory.Store.Relational.Statement
import UserDirectory.Telemetry.Line
import UserDirectory.Telemetry.Metrics
import UserDirectory.Telemetry.Note
import UserDirectory.Text.Ascii
import UserDirectory.Text.Base64Url
import UserDirectory.Text.Blank
import UserDirectory.Text.Decimal
import UserDirectory.Text.Fixed
import UserDirectory.Text.Quoted
import UserDirectory.Text.Unshown
import UserDirectory.Text.Utf8
import UserDirectory.Time.Calendar
import UserDirectory.Time.Duration
import UserDirectory.Time.Instant
import UserDirectory.Time.InstantText
import UserDirectory.Timeline.Basic
import UserDirectory.Timeline.Exchange
import UserDirectory.Timeline.Listening
import UserDirectory.Timeline.Refresher
import UserDirectory.TokenTool
import UserDirectory.User.Basic
import UserDirectory.User.FieldMask
import UserDirectory.User.Payload
import UserDirectory.Wire.Payload
import UserDirectory.Proofs.Concurrency.Interleaving
import UserDirectory.Proofs.Concurrency.Terms
import UserDirectory.Proofs.Store.Upkeep
import UserDirectory.Proofs.Concurrency.Actions
import UserDirectory.Proofs.Concurrency.Requests
import UserDirectory.Proofs.Concurrency.Upkeep
import UserDirectory.Proofs.Concurrency.Lineage
import UserDirectory.Proofs.Concurrency.LostUpdates
import UserDirectory.Proofs.Call.Likeness
import UserDirectory.Proofs.Timeline.Likeness
import UserDirectory.Proofs.Store.Relational.Failures
import UserDirectory.Proofs.Service.Discretion
import UserDirectory.Proofs.Call.Unheeded
import UserDirectory.Proofs.Timeline.Unheeded
import UserDirectory.Proofs.Access.Gate
import UserDirectory.Proofs.Timeline.Erasure
import UserDirectory.Proofs.Timeline.Discretion
import UserDirectory.Proofs.Text.Decimal
import UserDirectory.Proofs.Time.Calendar
import UserDirectory.Proofs.Errors
import UserDirectory.Proofs.Json.Codec
import UserDirectory.Proofs.Time.InstantText
import UserDirectory.Proofs.Wire.Payload
import UserDirectory.Proofs.Store.Relational.Database
import UserDirectory.Proofs.Store.Relational.Row
import UserDirectory.Proofs.SortedMap
import UserDirectory.Proofs.Store.Engines
import UserDirectory.Proofs.Concurrency.Execution
import UserDirectory.Proofs.Concurrency.Sessions
import UserDirectory.Proofs.Json.Record
import UserDirectory.Proofs.Wire.Claims
import UserDirectory.Proofs.Access.Parts
import UserDirectory.Proofs.Access.Genuine
import UserDirectory.Proofs.Access.Validity
import UserDirectory.Proofs.Call.Life
import UserDirectory.Proofs.Call.Deeds
import UserDirectory.Proofs.Call.Living
import UserDirectory.Proofs.Call.Turns
import UserDirectory.Proofs.Call.Nesting
import UserDirectory.Proofs.Call.Quiet
import UserDirectory.Proofs.Service.Nesting
import UserDirectory.Proofs.Telemetry.Tally
import UserDirectory.Proofs.Call.Traffic
import UserDirectory.Proofs.Call.Accounting
import UserDirectory.Proofs.Call.Alone
import UserDirectory.Proofs.Call.Delivery
import UserDirectory.Proofs.Call.Answering
import UserDirectory.Proofs.Call.Pairing
import UserDirectory.Proofs.Service.Pairing
import UserDirectory.Proofs.Call.Sharing
import UserDirectory.Proofs.Service.Listing
import UserDirectory.Proofs.Store.Paging
import UserDirectory.Proofs.Concurrency.Filled
import UserDirectory.Proofs.Concurrency.FirstUser
import UserDirectory.Proofs.Timeline.Snapshots
import UserDirectory.Proofs.Call.Cancellation
import UserDirectory.Proofs.Json.Grammar
import UserDirectory.Proofs.Json.Scalars
import UserDirectory.Proofs.Json.Loosening
import UserDirectory.Proofs.Wire.RoundTrip
import UserDirectory.Proofs.Access.Renewal
import UserDirectory.Proofs.TokenTool
import UserDirectory.Proofs.Call.Ending
import UserDirectory.Proofs.Call.Following
import UserDirectory.Proofs.Service.Ending
import UserDirectory.Proofs.Call.Series
import UserDirectory.Proofs.Service.Syncing
import UserDirectory.Proofs.User.MergeLaws
import UserDirectory.Proofs.Service.Reporting
import UserDirectory.Proofs.Call.Brief
import UserDirectory.Proofs.Service.Batching
import UserDirectory.Proofs.Call.Atomic
import UserDirectory.Proofs.Service.AllOrNothing
import UserDirectory.Proofs.Store.Independence
import UserDirectory.Proofs.Text.Utf8
import UserDirectory.Proofs.Store.PageToken
import UserDirectory.Proofs.Call.Timeout
import UserDirectory.Proofs.Store.Relational.Mapping
import UserDirectory.Proofs.Time.Ago
import UserDirectory.Proofs.Call.Persevering
import UserDirectory.Proofs.Service.Aging
