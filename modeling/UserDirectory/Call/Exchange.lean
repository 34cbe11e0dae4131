import UserDirectory.Call.Running
/-!
# Exchanges: a call and the caller who made it

The handler goes on as far as it can, then the caller reads what there is, and if the caller has left,
a call made through the server is cancelled.  Where a call through the server fails after its responses
have begun to be sent, the failure is the last of them.

Main statement: `work_of_hasEnded`, a call that has ended does not go on.
-/

namespace UserDirectory.Call

open UserDirectory.Service (ServiceError)

variable {ι ο σ α : Type}

/-- How a call is made. -/
inductive Manner
  /-- the handler alone -/
  | bare
  /-- through the chain -/
  | chained
  /-- through the server, which looks after the caller too -/
  | served
  deriving DecidableEq, Repr

/-- How far a call has come. -/
inductive Phase (ι ο σ α : Type) where
  | fresh (c : Running ι ο σ α)
  | running (c : Running ι ο σ α)
  | ended (result : Except ServiceError α) (state : CallState ο)

namespace Phase

/-- The state of the call. -/
def state : Phase ι ο σ α → CallState ο
  | fresh c => c.state
  | running c => c.state
  | ended _ s => s

/-- The call with its state changed. -/
def mapState (f : CallState ο → CallState ο) : Phase ι ο σ α → Phase ι ο σ α
  | fresh c => fresh { c with state := f c.state }
  | running c => running { c with state := f c.state }
  | ended r s => ended r (f s)

/-- Whether the call has ended. -/
def hasEnded : Phase ι ο σ α → Bool
  | ended .. => true
  | _ => false

end Phase

/-- A call and how it is made. -/
structure Exchange (ι ο σ α : Type) where
  manner : Manner
  /-- the millisecond at which the call is cancelled by whoever made it -/
  cancelAt : Option Nat
  /-- whether the handler has been let work -/
  entered : Bool
  phase : Phase ι ο σ α

namespace Exchange

/-- An exchange that has not begun. -/
def start (manner : Manner) (cancelAt : Option Nat) (c : Running ι ο σ α) : Exchange ι ο σ α :=
  ⟨manner, cancelAt, false, .fresh c⟩

/-- The state of the call. -/
def state (e : Exchange ι ο σ α) : CallState ο := e.phase.state

/-- The exchange with the state of the call changed. -/
def mapState (e : Exchange ι ο σ α) (f : CallState ο → CallState ο) : Exchange ι ο σ α :=
  { e with phase := e.phase.mapState f }

/-- Whether the call has ended. -/
def hasEnded (e : Exchange ι ο σ α) : Bool := e.phase.hasEnded

/-- Whether the responses come as a stream. -/
def isStreamed (e : Exchange ι ο σ α) : Bool :=
  match e.state.context.kind with
  | .serverStreaming => true
  | .bidirectional => true
  | _ => false

/-! ## §1. Turns. -/

/-- Cancels the call. -/
def cancel (e : Exchange ι ο σ α) : Exchange ι ο σ α :=
  e.mapState fun s => { s with cancelled := true }

/-- Cancels the call if it is time to. -/
def cancelWhenDue (e : Exchange ι ο σ α) (now : Nat) : Exchange ι ο σ α :=
  if e.cancelAt.any (· ≤ now) then e.cancel else e

/-- Sends why the call failed as the last response; that a caller has gone is noted. -/
def deliver (s : CallState ο) (w : World) (cause : ServiceError) : CallState ο × World :=
  let s := { s with outbound := s.outbound.makeRoom }
  if s.outbound.readerGone then (s, w.write [] [.callerGone])
  else ({ s with outbound := s.outbound.push (.error cause.status) }, w)

/-- The call ends with a result. -/
def conclude (e : Exchange ι ο σ α) (r : Except ServiceError α) (s : CallState ο) (w : World) :
    Exchange ι ο σ α × World :=
  match e.manner, r with
  | .served, .error cause =>
    -- after the end of its pass: no span is around what is noted here
    let (s, w) := deliver s w cause
    ({ e with phase := .ended r s }, w)
  | _, _ => ({ e with phase := .ended r s }, w)

/-- Whether the handler is let work when the call is looked at. -/
def letsWork (e : Exchange ι ο σ α) (s : CallState ο) (w : World) : Bool :=
  e.manner = .bare || !(s.isCancelled w || s.isOverdue w)

/-- Looks at a call that has begun. -/
def look (e : Exchange ι ο σ α) (c : Running ι ο σ α) (w : World) : Exchange ι ο σ α × World :=
  let e := { e with entered := e.entered || e.letsWork c.state w }
  match if e.manner = .bare then c.work w else c.poll w with
  | (.waiting c, w) => ({ e with phase := .running c }, w)
  | (.ended r s, w) => e.conclude r s w

/-- Lets the call go on as far as it can. -/
def work (e : Exchange ι ο σ α) (w : World) : Exchange ι ο σ α × World :=
  match e.phase with
  | .ended .. => (e, w)
  | .running c => e.look c w
  | .fresh c =>
    if e.manner = .bare then e.look c w
    else
      match c.enter w with
      | (none, c, w) => e.look c w
      | (some cause, c, w) => e.conclude (.error cause) c.state w

/-- The caller reads what there is; one who leaves the server cancels the call. -/
def read (e : Exchange ι ο σ α) : Exchange ι ο σ α :=
  let e := e.mapState fun s => { s with outbound := s.outbound.read e.hasEnded }
  if e.manner = .served ∧ e.state.outbound.readerGone then e.cancel else e

/-- Lets the call go on and then the caller. -/
def turn (e : Exchange ι ο σ α) (w : World) : Exchange ι ο σ α × World :=
  let (e, w) := e.work w
  (e.read, w)

/-- Does all that can be done at an instant.  A call that has been cancelled in its turn gets another
one, to end. -/
def settle (e : Exchange ι ο σ α) (w : World) : Exchange ι ο σ α × World :=
  let (e, w) := (e.cancelWhenDue w.clock).turn w
  -- the handler may have cancelled its own call, or the caller may have left
  if e.hasEnded = false ∧ e.state.isCancelled w then e.turn w else (e, w)

/-! ## §2. Waiting. -/

/-- The millisecond at which a request arrives that the handler waits for. -/
def requestDue (e : Exchange ι ο σ α) : Option Nat :=
  match e.phase with
  | .running ⟨_, .awaiting _, inbound, _⟩ => inbound.due
  | _ => none

/-- The milliseconds at which the call may go on by itself. -/
def dues (e : Exchange ι ο σ α) : List Nat :=
  e.state.hold.wake.toList ++ e.requestDue.toList ++ e.state.deadline.toList ++ e.cancelAt.toList

/-! ## §3. Losing patience. -/

/-- The caller waits no longer.  A stream through the server is left, and the call ends as any call
ends whose caller has left; any other call is dropped where it stands. -/
def giveUp (e : Exchange ι ο σ α) (w : World) : Exchange ι ο σ α × World :=
  if e.hasEnded then (e, w)
  else
    let e := e.mapState fun s => { s with outbound := s.outbound.leave .abandoned }
    -- the server goes on with a stream that is left, and so finds out
    if e.manner = .served ∧ e.isStreamed then e.cancel.settle w
    else
      let (w, s) := e.state.abandonAll w
      (e.mapState fun _ => s, w)

/-- What has become of a call. -/
structure Report (ο α : Type) where
  /-- how the call ended, unless the caller lost patience before -/
  result : Option (Except ServiceError α)
  /-- what the caller has read, and how the reading ended -/
  reader : Reader ο
  entered : Bool

/-- Tells what has become of a call. -/
def report (e : Exchange ι ο σ α) : Report ο α where
  result :=
    match e.phase with
    | .ended r _ => some r
    | _ => none
  reader := e.state.outbound.reader
  entered := e.entered

/-! ## §4. Ends. -/

/-- A call that has ended does not go on. -/
theorem work_of_hasEnded (e : Exchange ι ο σ α) (w : World) (h : e.hasEnded = true) :
    e.work w = (e, w) := by
  obtain ⟨manner, cancelAt, entered, phase⟩ := e
  cases phase with
  | ended r s => rfl
  | _ => simp [hasEnded, Phase.hasEnded] at h

end Exchange

end UserDirectory.Call
