import UserDirectory.Call.Context
import UserDirectory.Call.Program
import UserDirectory.Call.Stream
import UserDirectory.Call.World
/-!
# The state of a call, and its way through the chain

Every call goes through the chain: its start is noted and counted; the caller has to be known and
allowed to call the method; and when it ends, however it does, that is counted and noted once.  A
handler can send its call through the chain again, so the passes through the chain form a stack.

Main statements: `begin_inFlight`, `close_inFlight`, what the beginning and the end of a pass do to the
gauge.
-/

namespace UserDirectory.Call

open UserDirectory.Access (Claims Policy)
open UserDirectory.Service (ServiceError Status)
open UserDirectory.Telemetry (Note Span)
open UserDirectory.Time (Duration)

/-- What the cancellation of a call depends on beside itself. -/
inductive Tie
  | nothing
  /-- the shutdown of the server -/
  | shutdown
  /-- planned failures: the call is made without the chain and is the latest such call -/
  | direct
  deriving DecidableEq, Repr

/-- The state of a call apart from its handler. -/
structure CallState (ο : Type) where
  context : Context
  /-- the millisecond at which the time of the call is over -/
  deadline : Option Nat
  tie : Tie
  /-- whether the call itself has been cancelled -/
  cancelled : Bool
  claims : Option Claims
  /-- the milliseconds at which its passes through the chain began, the innermost first -/
  passes : List Nat
  hold : Hold
  outbound : Outbound ο

namespace CallState

variable {ο : Type}

/-- A call that starts at a millisecond. -/
def start (context : Context) (tie : Tie) (outbound : Outbound ο) (now : Nat) :
    CallState ο where
  context
  deadline := context.deadline now
  tie
  cancelled := false
  claims := none
  passes := []
  hold := .none_
  outbound

/-- Whether the call is cancelled: itself, or what it is tied to. -/
def isCancelled (s : CallState ο) (w : World) : Bool :=
  s.cancelled
    || match s.tie with
      | .nothing => false
      | .shutdown => w.shutdown
      | .direct => w.directCancelled

/-- Whether the time of the call is over. -/
def isOverdue (s : CallState ο) (w : World) : Bool := s.deadline.any (· ≤ w.clock)

/-- The span of the call. -/
def span (s : CallState ο) : Span := .call s.context.method s.context.kind

/-- What a line of the call is written inside of. -/
def spans (s : CallState ο) : List Span := s.passes.map fun _ => s.span

/-- Writes a line in the log for the call. -/
def write (s : CallState ο) (w : World) (notes : List Note) : World := w.write s.spans notes

/-! ## §1. Being let through. -/

/-- Decides about a call whose caller is known: what is noted, and why it is not let through. -/
def decide (s : CallState ο) (policy : Policy) (claims : Claims) : List Note × Except ServiceError Unit :=
  match policy.approve s.context.method claims with
  | .error e =>
    let table : List Note :=
      match policy with
      | .rules _ => [.ruleDenied s.context.method claims.userId]
      | .snapshot _ => []
    (table ++ [.callerDenied claims.userId e], .error (.permissionDenied e))
  | .ok () => ([.callerAuthorized claims.userId claims.username claims.roles], .ok ())

/-- What a call says that goes through the gate a second time. -/
def alreadyAttached : ServiceError := .internal "claims already attached to this call"

/-- Lets a call through or not: why not, the log, and the call with the claims of its caller. -/
def letThrough (s : CallState ο) (w : World) : Option ServiceError × World × CallState ο :=
  match w.gate with
  | none => (none, w, s)
  | some g =>
    match g.authority.authenticate s.context.metadata w.second with
    | .error e => (some (.unauthenticated e), s.write w [.callerUnknown e], s)
    | .ok claims =>
      let (notes, decision) := s.decide g.policy claims
      let w := s.write w notes
      match decision with
      | .error e => (some e, w, s)
      | .ok () =>
        -- only a call that goes through the chain again has claims by now
        if s.claims.isSome then (some alreadyAttached, w, s)
        else (none, w, { s with claims := some claims })

/-! ## §2. Passes. -/

/-- Begins a pass: it is noted and counted. -/
def begin (s : CallState ο) (w : World) : World × CallState ο :=
  let s := { s with passes := w.clock :: s.passes }
  ({ s.write w [.callStarted] with metrics := w.metrics.enter }, s)

/-- What is noted about the end of a pass. -/
def endNote (millis : Nat) : Option ServiceError → Note
  | none => .callCompleted millis
  | some e => .callFailed millis e

/-- Ends the innermost pass with what is noted about it. -/
def close (s : CallState ο) (w : World) (failed : Bool) (note : Nat → Note) : World × CallState ο :=
  match s.passes with
  | [] => (w, s)
  | began :: outer =>
    let millis := w.clock - began
    let metrics := w.metrics.record s.context.method (Duration.ofMillis millis) failed
    ({ s.write w [note millis] with metrics := metrics.leave }, { s with passes := outer })

/-- Ends the innermost pass with a failure or without. -/
def finish (s : CallState ο) (w : World) (failure : Option ServiceError) : World × CallState ο :=
  s.close w failure.isSome (endNote · failure)

/-- Gives up the innermost pass. -/
def abandon (s : CallState ο) (w : World) : World × CallState ο :=
  s.close w true .callAbandoned

/-- Gives up the innermost passes one after another, until `left` are left. -/
def abandonTo (left : Nat) : Nat → CallState ο → World → World × CallState ο
  | 0, s, w => (w, s)
  | n + 1, s, w =>
    if s.passes.length ≤ left then (w, s)
    else
      let (w, s) := s.abandon w
      abandonTo left n s w

/-- Gives up every pass inside of the outermost. -/
def abandonInner (s : CallState ο) (w : World) : World × CallState ο :=
  abandonTo 1 s.passes.length s w

/-- Gives up every pass: the caller has lost patience. -/
def abandonAll (s : CallState ο) (w : World) : World × CallState ο :=
  abandonTo 0 s.passes.length s w

/-- Begins a pass and asks to be let through; a pass that is not let through ends at once. -/
def enter (s : CallState ο) (w : World) : Option ServiceError × World × CallState ο :=
  let (w, s) := s.begin w
  match s.letThrough w with
  | (none, w, s) => (none, w, s)
  | (some e, w, s) =>
    let (w, s) := s.finish w (some e)
    (some e, w, s)

/-! ## §3. The gauge. -/

/-- A pass that begins counts as in flight. -/
theorem begin_inFlight (s : CallState ο) (w : World) :
    (s.begin w).1.metrics.inFlight = w.metrics.inFlight + 1 := rfl

/-- A pass that ends counts no longer. -/
theorem close_inFlight (s : CallState ο) (w : World) (failed : Bool) (note : Nat → Note)
    (h : s.passes ≠ []) : (s.close w failed note).1.metrics.inFlight = w.metrics.inFlight - 1 := by
  cases hp : s.passes with
  | nil => exact absurd hp h
  | cons began outer => simp [close, hp, Telemetry.Metrics.leave, Telemetry.Metrics.record]

end CallState

end UserDirectory.Call
