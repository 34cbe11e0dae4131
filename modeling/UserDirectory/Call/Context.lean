import UserDirectory.Call.Kind
import UserDirectory.Call.Timeout
/-!
# What is known of a call at its start

The method, the kind, the metadata, and how long the call may take.
-/

namespace UserDirectory.Call

open UserDirectory.Time (Duration)

/-- What is known of a call at its start. -/
structure Context where
  method : String
  kind : CallKind
  metadata : Option Metadata
  /-- how long the call may take; nothing is said where it may take for ever -/
  timeout : Option Duration

namespace Context

/-- From this number of seconds on, a timeout lies beyond the end of the clock. -/
def endOfClock : Nat := 9_223_372_036_854_775_807

/-- A call without a timeout. -/
def start (method : String) (kind : CallKind) (metadata : Option Metadata) : Context :=
  ⟨method, kind, metadata, none⟩

/-- The call with a timeout; one beyond the end of the clock is none. -/
def withTimeout (c : Context) (d : Duration) : Context :=
  { c with timeout := if d.seconds < endOfClock then some d else none }

/-- The call with the timeout that its metadata ask for, if they do. -/
def withMetadataTimeout (c : Context) : Context :=
  match c.metadata.bind Metadata.timeout? with
  | some d => c.withTimeout d
  | none => c

/-- The millisecond at which the time of the call is over, when it starts at a given one. -/
def deadline (c : Context) (start : Nat) : Option Nat :=
  c.timeout.map fun d => start + d.millisUp

end Context

end UserDirectory.Call
