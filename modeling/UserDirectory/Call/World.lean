import UserDirectory.Access.Token
import UserDirectory.Store.Backend
/-!
# The world around the calls

What calls share: the clock, the log, the metrics, the store, and who decides which call is let
through.
-/

namespace UserDirectory.Call

open UserDirectory.Access (Authority Policy)
open UserDirectory.Store (Backend Fault Operation)
open UserDirectory.Telemetry (Event Metrics Note Span)
open UserDirectory.Time (Duration Instant)

/-- Who lets calls through: the authority that knows callers by their tokens, and the policy. -/
structure Gate where
  authority : Authority
  policy : Policy

/-- What holds someone up who waits for the clock. -/
structure Hold where
  /-- the millisecond until which they wait -/
  wake : Option Nat
  /-- what befalls the operation they wait for -/
  fault : Option Fault

/-- Nothing holds anyone up. -/
def Hold.none_ : Hold := ⟨none, none⟩

/-- What calls share. -/
structure World where
  /-- the milliseconds since the beginning -/
  clock : Nat
  /-- the time on the wall; it has nothing to do with the clock -/
  wall : Instant
  log : List Event
  metrics : Metrics
  backend : Backend
  gate : Option Gate
  /-- whether the server has been shut down -/
  shutdown : Bool
  /-- whether the latest call made without the chain has been cancelled by a planned failure -/
  directCancelled : Bool

namespace World

/-- A world in which nothing has happened. -/
def start (wall : Instant) (gate : Option Gate) (backend : Backend) : World where
  clock := 0
  wall
  log := []
  metrics := .zero
  backend
  gate
  shutdown := false
  directCancelled := false

/-- The second on the wall. -/
def second (w : World) : Int64 := Int64.ofInt w.wall.seconds

/-- Writes lines in the log, inside of some spans. -/
def write (w : World) (spans : List Span) (notes : List Note) : World :=
  { w with log := w.log ++ notes.map fun n => ⟨n, spans⟩ }

/-- Asks the store for an operation: what befalls it. -/
def ask (w : World) (op : Operation) : Fault × World :=
  let (fault, backend) := w.backend.ask op
  (fault, { w with backend })

/-- How far the wall clock goes on between two readings. -/
def tick : Duration := .ofMicros 1

/-- Reads the clock on the wall; it shows a later time whenever it is read again. -/
def readWall (w : World) : Instant × World :=
  (w.wall, { w with wall := (w.wall.plus? tick).getD w.wall })

/-- Performs an operation inside of some spans. -/
def perform (w : World) (spans : List Span) (op : Operation) : op.Outcome × World :=
  let (now, w) := w.readWall
  let (outcome, backend, notes) := w.backend.perform now op
  (outcome, { w with backend }.write spans notes)

/-- Does what befalls an operation, and then the operation if it is let through. -/
def undergo (w : World) (spans : List Span) (op : Operation) (fault : Fault) :
    op.Outcome × World :=
  -- a cancellation does not keep the operation from being done
  let w := if fault.cancels then { w with directCancelled := true } else w
  match fault.error with
  | some e => (.error e, w)
  | none => w.perform spans op

/-- Waits some milliseconds: whether the wait is over, and how it goes on. -/
def wait (w : World) (h : Hold) (ms : Nat) : Bool × Hold :=
  let wake := h.wake.getD (w.clock + ms)
  if wake ≤ w.clock then (true, { h with wake := none }) else (false, { h with wake := some wake })

/-- Asks for an operation, once: what befalls it. -/
def askOnce (w : World) (h : Hold) (op : Operation) : Fault × World × Hold :=
  match h.fault with
  | some f => (f, w, h)
  | none =>
    let (f, w) := w.ask op
    (f, w, { h with fault := some f })

/-- Asks for an operation and performs it when it is held up no longer. -/
def attempt (w : World) (spans : List Span) (h : Hold) (op : Operation) :
    Option op.Outcome × World × Hold :=
  -- what befalls the operation is settled when it is asked for, not when the wait is over
  let (fault, w, h) := w.askOnce h op
  let (elapsed, h) := w.wait h fault.delay
  if elapsed then
    let (outcome, w) := w.undergo spans op fault
    (some outcome, w, { h with fault := none })
  else (none, w, h)

/-- Puts a snapshot in place of the one that decides about methods. -/
def install (w : World) (s : Access.Snapshot) : World :=
  { w with gate := w.gate.map fun g => { g with policy := .snapshot (some s) } }

end World

end UserDirectory.Call
