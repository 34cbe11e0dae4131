import UserDirectory.Access.Claims
import UserDirectory.Access.Policy
import UserDirectory.Call.Kind
import UserDirectory.Service.Error
import UserDirectory.Telemetry.Metrics
import UserDirectory.Text.Fixed
import UserDirectory.Text.Quoted
/-!
# The log

Everything worth a line in the log is a `Note`.  A line has a level, a sentence and fields; it also
tells inside of what it was written.
-/

namespace UserDirectory.Telemetry

open UserDirectory.Access (AuthError Claims PermissionError PolicyKind RoleNames)
open UserDirectory.Call (CallKind)
open UserDirectory.Service (ServiceError StatusCode)
open UserDirectory.Store (BackendFailure StoreError)
open UserDirectory.Text

/-! ## §1. What is noted. -/

/-- How much a line matters. -/
inductive Level
  | error
  | warn
  | info
  | debug
  deriving DecidableEq, Repr

/-- The name of a level. -/
def Level.name : Level → String
  | .error => "ERROR"
  | .warn => "WARN"
  | .info => "INFO"
  | .debug => "DEBUG"

/-- What stands in a field of a line. -/
inductive FieldValue
  | int (n : Int)
  | bool (b : Bool)
  | text (s : String)
  | float (x : Float)

/-- What is worth a line. -/
inductive Note
  | callStarted
  | callCompleted (millis : Nat)
  | callFailed (millis : Nat) (cause : ServiceError)
  | callAbandoned (millis : Nat)
  | deadlineExceeded
  | callerUnknown (cause : AuthError)
  | callerDenied (userId : String) (cause : PermissionError)
  | ruleDenied (method userId : String)
  | callerAuthorized (userId username : String) (roles : RoleNames)
  | inboundFailed (code : StatusCode)
  | callerGone
  | userAdded (id : UInt32)
  | userUpdated (id : UInt32) (paths : List String)
  | userDeleted (id : UInt32)
  | countFailed (cause : StoreError)
  | loginFailed (id : UInt32) (cause : StoreError)
  | batchFinished (received added failed : UInt32)
  | queryFailed (query field : String) (value : FieldValue) (cause : BackendFailure)
  | databaseConnected
  | databaseMigrated
  | snapshotRefreshed (users : Nat)
  | refreshFailed (cause : StoreError)
  | firstRefreshFailed (cause : StoreError)
  | refresherStopped
  | callStatistics (metrics : Metrics)
  | methodStatistics (method : String) (counters : MethodCounters)
  | serverStarting (authEnabled : Bool)
  | storeInMemory
  | authenticationOn (policy : PolicyKind) (issuer : String)
  | serverReady (authEnabled : Bool)
  | serverInterrupted
  | serverStopped

namespace Note

/-- The version that the server reports. -/
def version : String := "0.1.0"

/-- How much a note matters. -/
def level : Note → Level
  | countFailed _ | loginFailed .. | queryFailed .. => .error
  | callFailed .. | callAbandoned _ | callerUnknown _ | callerDenied .. | refreshFailed _
  | firstRefreshFailed _ => .warn
  | deadlineExceeded | ruleDenied .. | callerAuthorized .. | inboundFailed _ | callerGone
  | userUpdated .. | refresherStopped => .debug
  | _ => .info

/-- The sentence of a note. -/
def message : Note → String
  | callStarted => "Call started"
  | callCompleted _ => "Call completed"
  | callFailed .. => "Call failed"
  | callAbandoned _ => "Call abandoned by caller"
  | deadlineExceeded => "Deadline exceeded"
  | callerUnknown _ => "Unauthenticated call rejected"
  | callerDenied .. => "Call denied"
  | ruleDenied .. => "Static rule denied call"
  | callerAuthorized .. => "Caller authorized"
  | inboundFailed _ => "Inbound stream failed"
  | callerGone => "Caller gone before the final status was delivered"
  | userAdded _ => "User added"
  | userUpdated .. => "User updated"
  | userDeleted _ => "User deleted"
  | countFailed _ => "Failed to check user count"
  | loginFailed .. => "Failed to update last login"
  | batchFinished .. => "Batch add finished"
  | queryFailed .. => "Database query failed"
  | databaseConnected => "Connected to PostgreSQL"
  | databaseMigrated => "Database migrations completed"
  | snapshotRefreshed _ => "Authorization snapshot refreshed"
  | refreshFailed _ => "Authorization snapshot refresh failed, keeping previous"
  | firstRefreshFailed _ => "Initial authorization snapshot failed, denying until next refresh"
  | refresherStopped => "Authorization snapshot refresher stopped"
  | callStatistics _ => "Call statistics"
  | methodStatistics .. => "Method statistics"
  | serverStarting _ => "Starting Roster Server"
  | storeInMemory => "DATABASE_URL not set, using in-memory storage"
  | authenticationOn .. => "Authentication enabled"
  | serverReady _ => "Server ready"
  | serverInterrupted => "Received shutdown signal, cleaning up..."
  | serverStopped => "Server shutdown complete"

/-- A number in a field. -/
def number (n : Nat) : FieldValue := .int n

/-- The fields of the statistics of all calls. -/
def statistics (m : Metrics) : List (String × FieldValue) :=
  [("total_calls", number m.totalCalls.toNat), ("total_errors", number m.totalErrors.toNat),
   ("error_rate", .text (String.ofList (Fixed.write 2 m.errorRate ++ ['%']))),
   ("in_flight", .int m.inFlight)]

/-- The fields of a note. -/
def fields : Note → List (String × FieldValue)
  | callCompleted ms => [("duration_ms", number ms), ("code", .text "OK")]
  | callFailed ms e =>
    [("duration_ms", number ms), ("code", .text e.kind.name), ("error", .text e.message)]
  | callAbandoned ms =>
    [("duration_ms", number ms), ("code", .text Service.ErrorKind.cancelled.name)]
  | callerUnknown e => [("error", .text e.message)]
  | callerDenied userId e => [("user_id", .text userId), ("error", .text e.message)]
  | ruleDenied method userId => [("method", .text method), ("user_id", .text userId)]
  | callerAuthorized userId username roles =>
    [("user_id", .text userId), ("username", .text username),
     ("roles", .text (Quoted.set roles.keys))]
  | inboundFailed code => [("code", .text code.name)]
  | userAdded id => [("user_id", number id.toNat)]
  | userUpdated id paths => [("user_id", number id.toNat), ("paths", .text (Quoted.list paths))]
  | userDeleted id => [("user_id", number id.toNat)]
  | countFailed e => [("error", .text e.message)]
  | loginFailed id e => [("user_id", number id.toNat), ("error", .text e.message)]
  | batchFinished received added failed =>
    [("total_received", number received.toNat), ("total_added", number added.toNat),
     ("total_failed", number failed.toNat)]
  | queryFailed query field value e =>
    [("query", .text query), (field, value), ("error", .text e.message)]
  | snapshotRefreshed users => [("users", number users)]
  | refreshFailed e => [("error", .text e.message)]
  | firstRefreshFailed e => [("error", .text e.message)]
  | callStatistics m => statistics m
  | methodStatistics method c =>
    [("method", .text method), ("calls", number c.calls.toNat), ("errors", number c.errors.toNat),
     ("avg_duration_ms", .float c.averageMillis)]
  | serverStarting authEnabled =>
    [("version", .text version), ("auth_enabled", .bool authEnabled)]
  | authenticationOn policy issuer => [("policy", .text policy.name), ("issuer", .text issuer)]
  | serverReady authEnabled => [("auth", .bool authEnabled)]
  | _ => []

/-- The notes about the statistics: one about all calls and one about each method. -/
def ofStatistics (m : Metrics) : List Note :=
  callStatistics m :: m.methods.entries.map fun e => methodStatistics e.1 e.2

end Note

/-! ## §2. Lines. -/

/-- What a line is written inside of. -/
inductive Span
  | call (method : String) (kind : CallKind)
  | refresh
  deriving DecidableEq

/-- A line of the log; the spans stand outermost first. -/
structure Event where
  note : Note
  spans : List Span

end UserDirectory.Telemetry
