import UserDirectory.Call.Exchange
import UserDirectory.Proofs.Concurrency.Interleaving
/-!
# The life of a call

What a call goes through from its beginning to its end, in steps so small that anything else can come
between any two of them.  A step does at most one thing that others can tell: it asks the store for
one operation, reads the clock, writes one line, counts one call or moves the gauge.  What the caller, the
clock, the gate and the store answer is left to the outside.

What a call does without giving way, such as all that belongs to the end of a pass through the chain,
it owes from the moment on that it has begun with it; until it has paid, it does nothing else.

Main definitions:
  * `Deed`: what others can tell of a call;
  * `Program.Act`, `Life.Step`: the steps of a program and of a call;
  * `Life.Runs`: any number of steps, and what has been done on the way.
-/

namespace UserDirectory.Call

open UserDirectory.Access (Claims)
open UserDirectory.Service (ServiceError Status)
open UserDirectory.Store (Operation)
open UserDirectory.Telemetry (Note)
open UserDirectory.Time (Instant)

variable {ι ο σ α : Type}

/-! ## §1. Deeds. -/

/-- How a pass through the chain ends. -/
inductive PassEnd
  | completed
  | failed (cause : ServiceError)
  /-- it is dropped where it stands -/
  | abandoned

namespace PassEnd

/-- The end of a pass with a failure or without. -/
def ofFailure : Option ServiceError → PassEnd
  | none => completed
  | some cause => failed cause

/-- The end of a pass with a result. -/
def ofResult (r : Except ServiceError α) : PassEnd := ofFailure (Running.failureOf r)

/-- Whether it counts as a failure; all does that is not completed. -/
def isFailure : PassEnd → Bool
  | completed => false
  | _ => true

/-- What is noted about it. -/
def note (millis : Nat) : PassEnd → Note
  | completed => .callCompleted millis
  | failed cause => .callFailed millis cause
  | abandoned => .callAbandoned millis

theorem isFailure_ofFailure (failure : Option ServiceError) :
    (ofFailure failure).isFailure = failure.isSome := by
  cases failure <;> rfl

theorem note_ofFailure (millis : Nat) (failure : Option ServiceError) :
    (ofFailure failure).note millis = CallState.endNote millis failure := by
  cases failure <;> rfl

end PassEnd

/-- What others can tell of a call. -/
inductive Deed
  /-- the store does something, and dates it by the clock -/
  | transact (now : Instant) (x : Transaction)
  /-- the clock is read, which moves it on -/
  | read (now : Instant)
  | tell (n : Note)
  | enter
  | record (millis : Nat) (failed : Bool)
  | leave

namespace Deed

/-- What belongs to the beginning of a pass. -/
def opening : List Deed := [.tell .callStarted, .enter]

/-- What belongs to the end of a pass that has taken some milliseconds. -/
def closing (millis : Nat) (e : PassEnd) : List Deed :=
  [.record millis e.isFailure, .tell (e.note millis), .leave]

end Deed

/-! ## §2. Where a call stands. -/

/-- What a call has beside its handler. -/
structure Stance (ο : Type) where
  /-- how many passes are open -/
  depth : Nat
  /-- what it does next, and nothing before that -/
  owed : List Deed
  /-- whether it has been cancelled at some time, by whomever and whatever for -/
  cancelled : Bool
  outbound : Outbound ο
  /-- what the channel of responses has accepted -/
  accepted : List ο

namespace Stance

/-- A call that has not begun. -/
def start (outbound : Outbound ο) : Stance ο := ⟨0, [], false, outbound, []⟩

/-- Another pass begins. -/
def begin (s : Stance ο) : Stance ο :=
  { s with depth := s.depth + 1, owed := s.owed ++ Deed.opening }

/-- The innermost pass ends, if there is one. -/
def close (s : Stance ο) (millis : Nat) (e : PassEnd) : Stance ο :=
  if s.depth = 0 then s
  else { s with depth := s.depth - 1, owed := s.owed ++ Deed.closing millis e }

/-- The innermost passes are given up one after another; each has taken some milliseconds. -/
def abandon (s : Stance ο) (times : List Nat) : Stance ο :=
  times.foldl (fun s millis => s.close millis .abandoned) s

/-- The channel accepts a response. -/
def accept (s : Stance ο) (item : ο) : Stance ο :=
  { s with outbound := s.outbound.push (.ok item), accepted := s.accepted ++ [item] }

end Stance

/-- The caller reads the first of the responses that wait. -/
def Outbound.readFirst (o : Outbound ο) (first : Response ο) (rest : List (Response ο)) : Outbound ο :=
  { o with waiting := rest, reader := { o.reader with received := o.reader.received ++ [first] } }

/-- What befalls a call at any time. -/
inductive Stance.Drift (s : Stance ο) : Stance ο → Prop
  | read {first : Response ο} {rest : List (Response ο)} (hthere : s.outbound.readerGone = false)
      (h : s.outbound.waiting = first :: rest) :
      Drift s { s with outbound := s.outbound.readFirst first rest }
  /-- the caller leaves before the end -/
  | depart (how : ReaderEnd) (hthere : s.outbound.readerGone = false) (h : how ≠ .closed) :
      Drift s { s with outbound := s.outbound.leave how }
  /-- it is cancelled: by the caller, by the server, or because its time is over -/
  | cancel (h : s.cancelled = false) : Drift s { s with cancelled := true }

/-- Where the handler of a call stands. -/
inductive Spot (ο σ α : Type) where
  | fresh
  | going (stage : Stage ο σ α)
  /-- it has ended, and this is still to be sent to the caller -/
  | ended (result : Except ServiceError α) (unsent : Option Status)
  /-- nobody waits for it any more, and it has been dropped where it stood -/
  | dropped

/-- A call. -/
structure Life (ι ο σ α : Type) where
  handler : Handler ι ο σ α
  /-- whether it is made through the server, which tells the caller of a failure -/
  served : Bool
  /-- whether the stream of requests stays silent after the last arrival instead of ending -/
  silent : Bool
  /-- whether the chain has let it through -/
  admitted : Bool
  spot : Spot ο σ α
  stance : Stance ο
  /-- what has not been taken from the stream of requests -/
  arrivals : List (Arrival ι)
  taken : List ι

namespace Life

/-- A call that has not begun. -/
def start (handler : Handler ι ο σ α) (served : Bool) (inbound : Inbound ι) (outbound : Outbound ο) :
    Life ι ο σ α where
  handler
  served
  silent := inbound.silent
  admitted := false
  spot := .fresh
  stance := .start outbound
  arrivals := inbound.arrivals
  taken := []

/-- The call ends with a result. -/
def conclude (l : Life ι ο σ α) (s : Stance ο) (r : Except ServiceError α) : Life ι ο σ α :=
  { l with
    stance := s
    spot := .ended r (if l.served then (Running.failureOf r).map ServiceError.status else none) }

/-- The handler ends with a result, and with it the pass through the chain. -/
def finish (l : Life ι ο σ α) (millis : Nat) (r : Except ServiceError α) : Life ι ο σ α :=
  l.conclude (l.stance.close millis (.ofResult r)) r

end Life

/-! ## §3. Steps. -/

/-- One step of a program, and what it does by that. -/
inductive Program.Act (s : Stance ο) : Program ο α → Option Deed → Stance ο → Program ο α → Prop
  | store (op : Operation) (next : op.Outcome → Program ο α) (now : Instant) (r : op.Outcome) :
      Act s (.store op next) (some (.transact now ⟨op, r⟩)) s (next r)
  | send (item : ο) (next : Bool → Program ο α) (hthere : s.outbound.readerGone = false)
      (hroom : s.outbound.hasRoom = true) : Act s (.send item next) none (s.accept item) (next true)
  | sendGone (item : ο) (next : Bool → Program ο α) (hgone : s.outbound.readerGone = true) :
      Act s (.send item next) none s (next false)
  | live (next : Bool → Program ο α) (alive : Bool) (h : alive = false → s.cancelled = true) :
      Act s (.live next) none s (next alive)
  | clock (next : Instant → Program ο α) (now : Instant) :
      Act s (.clock next) (some (.read now)) s (next now)
  | note (n : Note) (next : Program ο α) : Act s (.note n next) (some (.tell n)) s next
  | pause (ms : Nat) (next : Program ο α) : Act s (.pause ms next) none s next
  | cancel (next : Program ο α) : Act s (.cancel next) none { s with cancelled := true } next
  | claims (next : Option Claims → Program ο α) (c : Option Claims) :
      Act s (.claims next) none s (next c)
  | enter (next : Option ServiceError → Program ο α) : Act s (.enter next) none s.begin (next none)
  | enterDenied (next : Option ServiceError → Program ο α) (cause : ServiceError) (millis : Nat) :
      Act s (.enter next) none (s.begin.close millis (.failed cause)) (next (some cause))
  | leave (failure : Option ServiceError) (next : Program ο α) (millis : Nat) :
      Act s (.leave failure next) none (s.close millis (.ofFailure failure)) next

/-- One step of a call, and what it does by that. -/
inductive Life.Step (l : Life ι ο σ α) : Option Deed → Life ι ο σ α → Prop
  | pay {d : Deed} {more : List Deed} (h : l.stance.owed = d :: more) :
      Step l (some d) { l with stance := { l.stance with owed := more } }
  | drift {s : Stance ο} (h : l.stance.Drift s) : Step l none { l with stance := s }
  | begin (hfree : l.stance.owed = []) (hspot : l.spot = .fresh) :
      Step l none
        { l with admitted := true, spot := .going l.handler.start, stance := l.stance.begin }
  | deny (hfree : l.stance.owed = []) (hspot : l.spot = .fresh) (cause : ServiceError)
      (millis : Nat) :
      Step l none (l.conclude (l.stance.begin.close millis (.failed cause)) (.error cause))
  | handle {p p' : Program ο (Except ServiceError σ)} {label : Option Deed} {s : Stance ο}
      (hfree : l.stance.owed = []) (hspot : l.spot = .going (.handling p))
      (h : p.Act l.stance label s p') :
      Step l label { l with spot := .going (.handling p'), stance := s }
  | close {p p' : Program ο (Except ServiceError α)} {label : Option Deed} {s : Stance ο}
      (hfree : l.stance.owed = []) (hspot : l.spot = .going (.closing p))
      (h : p.Act l.stance label s p') :
      Step l label { l with spot := .going (.closing p'), stance := s }
  /-- it takes the next message -/
  | take {kept : σ} {x : ι} {delay : Nat} {rest : List (Arrival ι)} (hfree : l.stance.owed = [])
      (hspot : l.spot = .going (.awaiting kept)) (h : l.arrivals = ⟨.ok x, delay⟩ :: rest) :
      Step l none { l with
        spot := .going (.handling (l.handler.onItem kept x))
        arrivals := rest
        taken := l.taken ++ [x] }
  /-- the connection fails -/
  | breakOff {kept : σ} {cause : Status} {delay : Nat} {rest : List (Arrival ι)}
      (hfree : l.stance.owed = []) (hspot : l.spot = .going (.awaiting kept))
      (h : l.arrivals = ⟨.error cause, delay⟩ :: rest) (millis : Nat) :
      Step l none (l.finish millis (.error (inboundFailure cause)))
  /-- the receiver finds the call cancelled -/
  | stopTaking {kept : σ} (hfree : l.stance.owed = []) (hspot : l.spot = .going (.awaiting kept))
      (hcancelled : l.stance.cancelled = true) (millis : Nat) :
      Step l none (l.finish millis (.error .cancelled))
  /-- the stream of requests ends -/
  | exhaust {kept : σ} (hfree : l.stance.owed = []) (hspot : l.spot = .going (.awaiting kept))
      (h : l.arrivals = []) (hsilent : l.silent = false) :
      Step l none { l with spot := .going (.closing (l.handler.onEnd kept)) }
  | answered {kept : σ} (hfree : l.stance.owed = [])
      (hspot : l.spot = .going (.handling (.done (.ok kept)))) :
      Step l none { l with spot := .going (.awaiting kept) }
  | failed {cause : ServiceError} (hfree : l.stance.owed = [])
      (hspot : l.spot = .going (.handling (.done (.error cause)))) (millis : Nat) :
      Step l none (l.finish millis (.error cause))
  | finish {r : Except ServiceError α} (hfree : l.stance.owed = [])
      (hspot : l.spot = .going (.closing (.done r))) (millis : Nat) :
      Step l none (l.finish millis r)
  /-- the chain ends a cancelled call; passes inside of the outermost are given up -/
  | cut {stage : Stage ο σ α} (hfree : l.stance.owed = []) (hspot : l.spot = .going stage)
      (hcancelled : l.stance.cancelled = true) (times : List Nat)
      (htimes : times.length = l.stance.depth - 1) (millis : Nat) :
      Step l none
        (l.conclude ((l.stance.abandon times).close millis (.failed .cancelled)) (.error .cancelled))
  | drop (hfree : l.stance.owed = []) (hspot : l.spot = .fresh ∨ ∃ stage, l.spot = .going stage)
      (times : List Nat) (htimes : times.length = l.stance.depth) :
      Step l none { l with spot := .dropped, stance := l.stance.abandon times }
  /-- the caller is sent why the call failed -/
  | tellFailure {r : Except ServiceError α} {cause : Status} (hfree : l.stance.owed = [])
      (hspot : l.spot = .ended r (some cause)) (hthere : l.stance.outbound.readerGone = false) :
      Step l none { l with
        spot := .ended r none
        stance := { l.stance with outbound := l.stance.outbound.push (.error cause) } }
  | tellNobody {r : Except ServiceError α} {cause : Status} (hfree : l.stance.owed = [])
      (hspot : l.spot = .ended r (some cause)) (hgone : l.stance.outbound.readerGone = true) :
      Step l none { l with spot := .ended r none }
  /-- nothing more can come, and the caller who has read everything stops reading -/
  | shut {r : Except ServiceError α} (hfree : l.stance.owed = [])
      (hspot : l.spot = .ended r none) (hthere : l.stance.outbound.readerGone = false)
      (hread : l.stance.outbound.waiting = []) :
      Step l none
        { l with stance := { l.stance with outbound := l.stance.outbound.leave .closed } }

/-! ## §4. Runs. -/

namespace Life

/-- Any number of steps, and what has been done on the way. -/
inductive Runs : Life ι ο σ α → List Deed → Life ι ο σ α → Prop
  | refl {l : Life ι ο σ α} : Runs l [] l
  | step {l l' l'' : Life ι ο σ α} {label : Option Deed} {deeds : List Deed} (h : l.Step label l')
      (hs : Runs l' deeds l'') : Runs l (label.toList ++ deeds) l''

variable {l l' l'' : Life ι ο σ α}

theorem Runs.trans {deeds deeds' : List Deed} (h : l.Runs deeds l') (h' : l'.Runs deeds' l'') :
    l.Runs (deeds ++ deeds') l'' := by
  induction h with
  | refl => exact h'
  | step hstep _ ih =>
    rw [List.append_assoc]
    exact .step hstep (ih h')

theorem Step.runs {label : Option Deed} (h : l.Step label l') : l.Runs label.toList l' := by
  have hruns := Runs.step h .refl
  rwa [List.append_nil] at hruns

/-- A call pays what it owes. -/
theorem runs_pay (l : Life ι ο σ α) (owed : List Deed) :
    Runs { l with stance := { l.stance with owed } } owed
      { l with stance := { l.stance with owed := [] } } := by
  induction owed with
  | nil => exact .refl
  | cons d more ih => exact .step (.pay rfl) ih

/-- What a call is does not change while it lives; once the chain has let it through, it has. -/
structure Kin (l l' : Life ι ο σ α) : Prop where
  handler : l'.handler = l.handler
  served : l'.served = l.served
  silent : l'.silent = l.silent
  admitted : l.admitted = true → l'.admitted = true

theorem Kin.trans (h : l.Kin l') (h' : l'.Kin l'') : l.Kin l'' :=
  ⟨h'.handler.trans h.handler, h'.served.trans h.served, h'.silent.trans h.silent,
    h'.admitted ∘ h.admitted⟩

theorem Step.kin {label : Option Deed} (h : l.Step label l') : l.Kin l' := by
  cases h with
  | begin hfree hspot => exact ⟨rfl, rfl, rfl, fun _ => rfl⟩
  | _ => exact ⟨rfl, rfl, rfl, id⟩

theorem Runs.kin {deeds : List Deed} (h : l.Runs deeds l') : l.Kin l' := by
  induction h with
  | refl => exact ⟨rfl, rfl, rfl, id⟩
  | step hstep _ ih => exact hstep.kin.trans ih

end Life

end UserDirectory.Call
