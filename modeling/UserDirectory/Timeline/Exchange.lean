import UserDirectory.Call.Exchange
import UserDirectory.Service.Request
import UserDirectory.Timeline.Basic
/-!
# Calls in time

A call is made and waited for, at the longest for some milliseconds; then the caller has lost patience.
The server makes the calls of requests through the chain and ties them to its own shutdown; the handler
of a request can also be asked alone.
-/

namespace UserDirectory.Timeline

open UserDirectory.Call
open UserDirectory.Service (Request)
open UserDirectory.Store (StoreError)

variable {ι ο σ α : Type}

/-- The longest that anyone is waited for if nothing is said, in milliseconds. -/
def longWait : Nat := 3600000

/-! ## §1. Calls. -/

/-- A call as it goes on in time. -/
def calling : Activity (Exchange ι ο σ α) where
  settle := Exchange.settle
  dues := Exchange.dues
  isDone := Exchange.hasEnded

/-- Makes a call and waits for it for some milliseconds. -/
def call (t : Timeline) (e : Exchange ι ο σ α) (patience : Nat) : Exchange.Report ο α × Timeline :=
  let (e, t) := t.runFor calling e patience
  let (e, world) := e.giveUp t.world
  (e.report, { t with world })

/-! ## §2. Requests. -/

/-- The channel from a handler to a caller. -/
abbrev Channel (r : Request) : Type := Outbound r.method.Response

/-- What becomes of a request. -/
abbrev Answer (r : Request) : Type := Exchange.Report r.method.Response r.method.Result

/-- The call of a request through the server. -/
def served (r : Request) (metadata : Option Metadata) (channel : Channel r) (now : Nat) :
    Exchange r.method.Item r.method.Response r.method.Progress r.method.Result :=
  let context := (r.context metadata).withMetadataTimeout
  .start .served none (.start r.handler r.inbound (.start context .shutdown channel now))

/-- The call of a request to its handler alone. -/
def direct (r : Request) (cancelled : Bool) (channel : Channel r) (now : Nat) :
    Exchange r.method.Item r.method.Response r.method.Progress r.method.Result :=
  let state : CallState r.method.Response := .start (r.context none) .direct channel now
  .start .bare none (.start r.handler r.inbound { state with cancelled })

/-- Sends a request to the server and waits for some milliseconds. -/
def serve (t : Timeline) (r : Request) (metadata : Option Metadata) (channel : Channel r)
    (patience : Nat) : Answer r × Timeline :=
  t.call (served r metadata channel t.world.clock) patience

/-- Asks the handler of a request alone and waits for some milliseconds. -/
def ask (t : Timeline) (r : Request) (cancelled : Bool) (channel : Channel r) (patience : Nat) :
    Answer r × Timeline :=
  let t := t.mapWorld fun w => { w with directCancelled := false }
  t.call (direct r cancelled channel t.world.clock) patience

/-! ## §3. Refreshing on demand. -/

/-- A refresh that someone waits for. -/
structure Refreshing where
  hold : Hold
  ended : Option (Except StoreError Nat)

/-- Goes on with a refresh that has not ended. -/
def Refreshing.settle (r : Refreshing) (w : World) : Refreshing × World :=
  if r.ended.isSome then (r, w)
  else
    let (ended, w, hold) := refresh w r.hold
    (⟨hold, ended⟩, w)

/-- A refresh as it goes on in time. -/
def refreshing : Activity Refreshing where
  settle := Refreshing.settle
  dues r := r.hold.wake.toList
  isDone r := r.ended.isSome

/-- A refresh that goes on and after which no other is begun. -/
def finishing : Activity Refresher where
  settle r w := if r.isBusy then r.goOn 1 w else (r, w)
  dues := Refresher.dues
  isDone r := !r.isBusy

/-- Refreshes the snapshot: how that ended, if it did. -/
def refreshNow (t : Timeline) : Option (Except StoreError Nat) × Timeline :=
  let (r, t) := t.runFor refreshing ⟨.none_, none⟩ longWait
  (r.ended, t)

/-- Refreshes the snapshot every so many milliseconds from now on. -/
def startRefreshing (t : Timeline) (every : Nat) : Timeline :=
  { t with refresher := some (.start every t.world.clock) }

/-- Stops refreshing after the refresh that is going on: whether there was anything to stop. -/
def stopRefreshing (t : Timeline) : Bool × Timeline :=
  match t.refresher with
  | none => (false, t)
  | some r =>
    let (_, t) := { t with refresher := none }.runFor finishing r longWait
    (true, t.mapWorld fun w => w.write [] [.refresherStopped])

end UserDirectory.Timeline
