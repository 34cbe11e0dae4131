import UserDirectory.Service.Error
import UserDirectory.Telemetry.Note
/-!
# The two streams of a call

Requests arrive one after another, each some time after the one before was taken.  Responses wait in
a channel of bounded size until the caller reads them.
-/

namespace UserDirectory.Call

open UserDirectory.Service (ServiceError Status)
open UserDirectory.Telemetry (Note)

/-! ## §1. Requests. -/

/-- What arrives next: a message or a failure of the connection, some milliseconds after it is
waited for. -/
structure Arrival (ι : Type) where
  content : Except Status ι
  delay : Nat

/-- The stream of requests. -/
structure Inbound (ι : Type) where
  arrivals : List (Arrival ι)
  /-- whether the stream stays silent after the last arrival instead of ending -/
  silent : Bool
  /-- the millisecond of the next arrival, once it is waited for -/
  due : Option Nat

/-- What a receiver finds. -/
inductive Reception (ι : Type) where
  /-- a message -/
  | item (x : ι)
  /-- the end of the stream -/
  | ended
  /-- a failure -/
  | failed (cause : ServiceError)
  /-- nothing yet -/
  | nothing

/-- What a failed connection means for the call: the caller has left, or nobody knows. -/
def inboundFailure (s : Status) : ServiceError :=
  match s.code with
  | .cancelled => .cancelled
  | .deadlineExceeded => .cancelled
  | _ => .internal "inbound stream failed"

/-- What is noted about a failed connection; nothing where the caller has left. -/
def inboundNotes (s : Status) : List Note :=
  match s.code with
  | .cancelled => []
  | .deadlineExceeded => []
  | code => [.inboundFailed code]

namespace Inbound

variable {ι : Type}

/-- The stream of some arrivals. -/
def ofArrivals (arrivals : List (Arrival ι)) (silent : Bool) : Inbound ι := ⟨arrivals, silent, none⟩

/-- The stream that ends at once. -/
def empty : Inbound ι := ofArrivals [] false

/-- The millisecond of an arrival that is waited for from `now` on, if not from earlier on. -/
def dueAt (i : Inbound ι) (a : Arrival ι) (now : Nat) : Nat := i.due.getD (now + a.delay)

/-- What a receiver finds now, what is noted about it, and what is left of the stream.  Nothing more
is taken from the stream of a cancelled call. -/
def receive (i : Inbound ι) (cancelled : Bool) (now : Nat) : Reception ι × List Note × Inbound ι :=
  if cancelled then (.failed .cancelled, [], i)
  else
    match i.arrivals with
    | [] => (if i.silent then .nothing else .ended, [], i)
    | a :: rest =>
      let due := i.dueAt a now
      -- the wait for an arrival begins when it is first asked for
      if due ≤ now then
        let left : Inbound ι := ⟨rest, i.silent, none⟩
        match a.content with
        | .ok x => (.item x, [], left)
        | .error s => (.failed (inboundFailure s), inboundNotes s, left)
      else (.nothing, [], { i with due := some due })

end Inbound

/-! ## §2. The caller as a reader. -/

/-- How the caller stopped reading. -/
inductive ReaderEnd
  /-- nothing more could come -/
  | closed
  /-- the caller had enough -/
  | dropped
  /-- the caller lost patience -/
  | abandoned
  deriving DecidableEq, Repr

/-- What a caller can be sent: a message, or last of all why the call failed. -/
abbrev Response (ο : Type) : Type := Except Status ο

/-- The caller as a reader of responses. -/
structure Reader (ο : Type) where
  /-- how many messages are enough, if there is an enough -/
  enough : Option Nat
  /-- whether the caller reads as soon as there is no room for another response -/
  attentive : Bool
  received : List (Response ο)
  ending : Option ReaderEnd

namespace Reader

variable {ο : Type}

/-- An attentive caller who has read nothing. -/
def start (enough : Option Nat) : Reader ο := ⟨enough, true, [], none⟩

/-- A caller who has left before there was anything to read. -/
def absent : Reader ο := ⟨some 0, true, [], some .dropped⟩

/-- The messages that the caller has read. -/
def messages (r : Reader ο) : List ο := r.received.filterMap Except.toOption

/-- Whether the caller has had enough. -/
def hasEnough (r : Reader ο) : Bool := r.enough.any fun n => n ≤ r.messages.length

/-- Reads responses one after another; stops when it is enough or nothing waits, and then tells what
is left. -/
def take (r : Reader ο) : List (Response ο) → Reader ο × List (Response ο)
  | [] => (r, [])
  | x :: rest =>
    if r.hasEnough then (r, x :: rest) else take { r with received := r.received ++ [x] } rest

/-- Stops reading, if nothing has ended the reading before. -/
def stop (r : Reader ο) (how : ReaderEnd) : Reader ο :=
  { r with ending := some (r.ending.getD how) }

end Reader

/-! ## §3. Responses. -/

/-- The channel of responses: what waits in it, for how many there is room, and who reads them. -/
structure Outbound (ο : Type) where
  waiting : List (Response ο)
  capacity : Nat
  reader : Reader ο

namespace Outbound

variable {ο : Type}

/-- An empty channel; it has room for one response at least. -/
def ofCapacity (n : Nat) (reader : Reader ο) : Outbound ο := ⟨[], max n 1, reader⟩

/-- Whether the caller reads no more. -/
def readerGone (o : Outbound ο) : Bool := o.reader.ending.isSome

/-- Whether there is room for one more response. -/
def hasRoom (o : Outbound ο) : Bool := o.waiting.length < o.capacity

/-- One more response waits. -/
def push (o : Outbound ο) (r : Response ο) : Outbound ο := { o with waiting := o.waiting ++ [r] }

/-- The caller stops reading, and what waits is lost. -/
def leave (o : Outbound ο) (how : ReaderEnd) : Outbound ο :=
  { o with waiting := [], reader := o.reader.stop how }

/-- The caller reads what there is.  One who has had enough leaves; so does one to whom nothing more
can come because the channel is closed. -/
def read (o : Outbound ο) (closed : Bool) : Outbound ο :=
  if o.readerGone then o
  else
    let (reader, waiting) := o.reader.take o.waiting
    let o := { o with reader, waiting }
    if reader.hasEnough then o.leave .dropped
    else if closed then o.leave .closed
    else o

/-- An attentive caller reads when there is no room for another response. -/
def makeRoom (o : Outbound ο) : Outbound ο :=
  if o.hasRoom || !o.reader.attentive then o else o.read false

end Outbound

end UserDirectory.Call
