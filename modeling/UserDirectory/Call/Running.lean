import UserDirectory.Call.Handler
import UserDirectory.Call.State
/-!
# Running calls

A call runs whenever it is looked at, as far as it can come without waiting.  Before it goes on it is
seen to whether it has been cancelled or its time is over; then it ends there, and its handler does
nothing any more.

Main statements: `poll_of_isCancelled`, `poll_of_isOverdue`, in these two cases the handler has no
part in how the call ends.
-/

namespace UserDirectory.Call

open UserDirectory.Service (ServiceError Status)
open UserDirectory.Telemetry (Note)

variable {ι ο σ α β : Type}

/-! ## §1. Programs. -/

/-- How far a program has come. -/
inductive Progress (ο β : Type) where
  | finished (b : β)
  /-- this is still to be done, but has to wait -/
  | waiting (p : Program ο β)

/-- Does a program as far as it can come without waiting. -/
def advance : Program ο β → World → CallState ο → Progress ο β × World × CallState ο
  | .done b, w, s => (.finished b, w, s)
  | .store op next, w, s =>
    match w.attempt s.spans s.hold op with
    | (some outcome, w, hold) => advance (next outcome) w { s with hold }
    | (none, w, hold) => (.waiting (.store op next), w, { s with hold })
  | .send item next, w, s =>
    let s := { s with outbound := s.outbound.makeRoom }
    if s.outbound.readerGone then advance (next false) w s
    else if s.outbound.hasRoom then
      advance (next true) w { s with outbound := s.outbound.push (.ok item) }
    else (.waiting (.send item next), w, s)
  | .live next, w, s => advance (next (!s.isCancelled w)) w s
  | .clock next, w, s =>
    let (now, w) := w.readWall
    advance (next now) w s
  | .note n next, w, s => advance next (s.write w [n]) s
  | .pause ms next, w, s =>
    let (elapsed, hold) := w.wait s.hold ms
    let s := { s with hold }
    if elapsed then advance next w s else (.waiting (.pause ms next), w, s)
  -- the call gives way, so that it is looked at again
  | .cancel next, w, s => (.waiting next, w, { s with cancelled := true })
  | .claims next, w, s => advance (next s.claims) w s
  | .enter next, w, s =>
    let (failure, w, s) := s.enter w
    advance (next failure) w s
  | .leave failure next, w, s =>
    let (w, s) := s.finish w failure
    advance next w s

/-! ## §2. Handlers. -/

/-- A call whose handler has not ended. -/
structure Running (ι ο σ α : Type) where
  handler : Handler ι ο σ α
  stage : Stage ο σ α
  inbound : Inbound ι
  state : CallState ο

/-- What comes of looking at a call. -/
inductive Poll (ι ο σ α : Type) where
  | waiting (c : Running ι ο σ α)
  | ended (result : Except ServiceError α) (state : CallState ο)

namespace Running

/-- Does what is left when there are no more requests. -/
def closing (h : Handler ι ο σ α) (i : Inbound ι) (p : Program ο (Except ServiceError α)) (w : World)
    (s : CallState ο) : Poll ι ο σ α × World :=
  match advance p w s with
  | (.finished r, w, s) => (.ended r s, w)
  | (.waiting p, w, s) => (.waiting ⟨h, .closing p, i, s⟩, w)

/-- Takes one request after another and answers it.  The arrivals are those of the stream; they are
given once more because the work shrinks with them. -/
def serve (h : Handler ι ο σ α) : List (Arrival ι) → Inbound ι → σ → World → CallState ο →
    Poll ι ο σ α × World
  | arrivals, i, kept, w, s =>
    match i.receive (s.isCancelled w) w.clock with
    | (.nothing, notes, i) => (.waiting ⟨h, .awaiting kept, i, s⟩, s.write w notes)
    | (.failed e, notes, _) => (.ended (.error e) s, s.write w notes)
    | (.ended, notes, i) => closing h i (h.onEnd kept) (s.write w notes) s
    | (.item x, notes, i) =>
      match advance (h.onItem kept x) (s.write w notes) s with
      | (.finished (.error e), w, s) => (.ended (.error e) s, w)
      | (.waiting p, w, s) => (.waiting ⟨h, .handling p, i, s⟩, w)
      | (.finished (.ok kept), w, s) =>
        match arrivals with
        -- there was an arrival, so this is out of reach
        | [] => (.waiting ⟨h, .awaiting kept, i, s⟩, w)
        | _ :: rest => serve h rest i kept w s

/-- Lets the handler go on. -/
def work (c : Running ι ο σ α) (w : World) : Poll ι ο σ α × World :=
  match c.stage with
  | .awaiting kept => serve c.handler c.inbound.arrivals c.inbound kept w c.state
  | .closing p => closing c.handler c.inbound p w c.state
  | .handling p =>
    match advance p w c.state with
    | (.finished (.ok kept), w, s) => serve c.handler c.inbound.arrivals c.inbound kept w s
    | (.finished (.error e), w, s) => (.ended (.error e) s, w)
    | (.waiting p, w, s) => (.waiting { c with stage := .handling p, state := s }, w)

/-! ## §3. Looking at a call. -/

/-- The failure in a result. -/
def failureOf (r : Except ServiceError α) : Option ServiceError :=
  match r with
  | .ok _ => none
  | .error e => some e

/-- Ends a call with a result: the outermost pass ends. -/
def endWith (r : Except ServiceError α) (s : CallState ο) (w : World) : Poll ι ο σ α × World :=
  let (w, s) := s.finish w (failureOf r)
  (.ended r s, w)

/-- Ends a call that has been cancelled; passes inside of the outermost are given up. -/
def endCancelled (s : CallState ο) (w : World) : Poll ι ο σ α × World :=
  let (w, s) := s.abandonInner w
  endWith (.error .cancelled) s w

/-- Ends a call whose time is over, and cancels it. -/
def endOverdue (s : CallState ο) (w : World) : Poll ι ο σ α × World :=
  let (w, s) := s.abandonInner w
  endWith (.error .cancelled) { s with cancelled := true } (s.write w [.deadlineExceeded])

/-- Looks at a call that has been let through the chain. -/
def poll (c : Running ι ο σ α) (w : World) : Poll ι ο σ α × World :=
  -- a tie goes to the cancellation, then to the deadline
  if c.state.isCancelled w then endCancelled c.state w
  else if c.state.isOverdue w then endOverdue c.state w
  else
    match c.work w with
    | (.waiting c, w) => (.waiting c, w)
    | (.ended r s, w) => endWith r s w

/-- A cancelled call ends as such. -/
theorem poll_of_isCancelled (c : Running ι ο σ α) (w : World) (h : c.state.isCancelled w = true) :
    c.poll w = endCancelled c.state w := by
  simp [poll, h]

/-- A call whose time is over ends as such, unless it is cancelled. -/
theorem poll_of_isOverdue (c : Running ι ο σ α) (w : World) (h : c.state.isCancelled w = false)
    (hover : c.state.isOverdue w = true) : c.poll w = endOverdue c.state w := by
  simp [poll, h, hover]

end Running

/-! ## §4. Calls from their start. -/

namespace Running

/-- A call that has not begun. -/
def start (h : Handler ι ο σ α) (i : Inbound ι) (s : CallState ο) : Running ι ο σ α :=
  ⟨h, h.start, i, s⟩

/-- Begins a call through the chain; gives why it is not let through, if so. -/
def enter (c : Running ι ο σ α) (w : World) : Option ServiceError × Running ι ο σ α × World :=
  let (refusal, w, state) := c.state.enter w
  (refusal, { c with state }, w)

end Running

end UserDirectory.Call
