import UserDirectory.Call.Stream
import UserDirectory.Timeline.Basic
/-!
# Waiting for requests

A receiver alone waits for what comes next in a stream of requests.  One who stops waiting loses
nothing: what is on its way comes to the next who waits.
-/

namespace UserDirectory.Timeline

open UserDirectory.Call (Inbound Reception World)

variable {ι : Type}

/-- A receiver of requests. -/
structure Listening (ι : Type) where
  inbound : Inbound ι
  /-- the millisecond at which the call is cancelled -/
  cancelAt : Option Nat
  heard : Reception ι

namespace Listening

/-- Takes what has come. -/
def settle (l : Listening ι) (w : World) : Listening ι × World :=
  let (heard, notes, inbound) := l.inbound.receive (l.cancelAt.any (· ≤ w.clock)) w.clock
  ({ l with inbound, heard }, w.write [] notes)

/-- Whether something has been heard. -/
def isDone (l : Listening ι) : Bool :=
  match l.heard with
  | .nothing => false
  | _ => true

end Listening

/-- A receiver as it waits in time. -/
def listening : Activity (Listening ι) where
  settle := Listening.settle
  dues l := l.inbound.due.toList ++ l.cancelAt.toList
  isDone := Listening.isDone

/-- Waits for the next request, at the longest for some milliseconds: what has been heard, what is left
of the stream, and the time after that. -/
def receive (t : Timeline) (i : Inbound ι) (cancelAt : Option Nat) (patience : Nat) :
    Reception ι × Inbound ι × Timeline :=
  let (l, t) := t.runFor listening ⟨i, cancelAt, .nothing⟩ patience
  (l.heard, l.inbound, t)

end UserDirectory.Timeline
