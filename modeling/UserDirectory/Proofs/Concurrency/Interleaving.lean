import UserDirectory.Service.Request
import UserDirectory.Store.Memory
/-!
# Calls that go on at the same time

Any number of calls share one table.  A step of the whole is a step of one of them, and a step asks the
store for one operation at most; so what the others do can come between any two operations of a call.
Everything else that a call asks of the outside is answered in whatever way the outside likes: the
caller may be there or gone, the call cancelled or not, the clock may show any time.

Main definitions:
  * `Program.Step`, `Course.Step`: the steps of a program and of a call;
  * `System.Step`, `System.Runs`: the steps of all calls together, and what they ask of the store;
  * `System.Reachable`: what can come of an empty store without calls.
-/

namespace UserDirectory.Call

open UserDirectory.Access (Claims)
open UserDirectory.Service (ServiceError)
open UserDirectory.Store (Operation Table)
open UserDirectory.Telemetry (Note)
open UserDirectory.Time (Instant)

/-! ## §1. Programs. -/

/-- An operation that has been asked for, and what it gave. -/
structure Transaction where
  operation : Operation
  outcome : operation.Outcome

/-- One step of a program on a table, and what it has asked of the store if it has asked for
something. -/
inductive Program.Step {ο α : Type} (t : Table) :
    Program ο α → Option Transaction → Table → Program ο α → Prop
  /-- the operation is performed as a whole, by whatever clock -/
  | store (op : Operation) (next : op.Outcome → Program ο α) (now : Instant) :
      Step t (.store op next) (some ⟨op, (t.perform now op).1⟩) (t.perform now op).2
        (next (t.perform now op).1)
  | send (item : ο) (next : Bool → Program ο α) (there : Bool) :
      Step t (.send item next) none t (next there)
  | live (next : Bool → Program ο α) (alive : Bool) : Step t (.live next) none t (next alive)
  | clock (next : Instant → Program ο α) (now : Instant) : Step t (.clock next) none t (next now)
  | note (n : Note) (next : Program ο α) : Step t (.note n next) none t next
  | pause (ms : Nat) (next : Program ο α) : Step t (.pause ms next) none t next
  | cancel (next : Program ο α) : Step t (.cancel next) none t next
  | claims (next : Option Claims → Program ο α) (c : Option Claims) :
      Step t (.claims next) none t (next c)
  | enter (next : Option ServiceError → Program ο α) (refusal : Option ServiceError) :
      Step t (.enter next) none t (next refusal)
  | leave (failure : Option ServiceError) (next : Program ο α) :
      Step t (.leave failure next) none t next

/-- A step of a program leaves the table alone or performs what it asks for. -/
theorem Program.Step.table_eq {ο α : Type} {t t' : Table} {p p' : Program ο α}
    {asked : Option Transaction} (h : p.Step t asked t' p') :
    (asked = none ∧ t' = t)
    ∨ ∃ op now, asked = some ⟨op, (t.perform now op).1⟩ ∧ t' = (t.perform now op).2 := by
  cases h with
  | store op next now => exact .inr ⟨op, now, rfl, rfl⟩
  | _ => exact .inl ⟨rfl, rfl⟩

end UserDirectory.Call

namespace UserDirectory.Service

open UserDirectory.Call
open UserDirectory.Store (Table)

/-! ## §2. Calls. -/

/-- How far the call of a request has come. -/
inductive Course (r : Request) where
  /-- its handler is at a stage, and these arrivals have not been taken -/
  | going (stage : Stage r.method.Response r.method.Progress r.method.Result)
      (arrivals : List (Arrival r.method.Item))
  | ended (result : Except ServiceError r.method.Result)
  /-- nobody waits for it any more, and it has been dropped where it stood -/
  | dropped

/-- A call that has been let through and not begun. -/
def Course.start (r : Request) : Course r := .going r.handler.start r.inbound.arrivals

/-- One step of a call, and what it has asked of the store if it has asked for something. -/
inductive Course.Step {r : Request} (t : Table) :
    Course r → Option Transaction → Table → Course r → Prop
  | handle {p p' : Program r.method.Response (Except ServiceError r.method.Progress)}
      {asked : Option Transaction} {t' : Table} (rest : List (Arrival r.method.Item))
      (h : Program.Step t p asked t' p') :
      Step t (.going (.handling p) rest) asked t' (.going (.handling p') rest)
  | close {p p' : Program r.method.Response (Except ServiceError r.method.Result)}
      {asked : Option Transaction} {t' : Table} (rest : List (Arrival r.method.Item))
      (h : Program.Step t p asked t' p') :
      Step t (.going (.closing p) rest) asked t' (.going (.closing p') rest)
  /-- it takes the next message -/
  | take (kept : r.method.Progress) (x : r.method.Item) (delay : Nat)
      (rest : List (Arrival r.method.Item)) :
      Step t (.going (.awaiting kept) (⟨.ok x, delay⟩ :: rest)) none t
        (.going (.handling (r.handler.onItem kept x)) rest)
  /-- the connection fails -/
  | breakOff (kept : r.method.Progress) (cause : Status) (delay : Nat)
      (rest : List (Arrival r.method.Item)) :
      Step t (.going (.awaiting kept) (⟨.error cause, delay⟩ :: rest)) none t
        (.ended (.error (inboundFailure cause)))
  /-- the stream of requests ends -/
  | exhaust (kept : r.method.Progress) (h : r.inbound.silent = false) :
      Step t (.going (.awaiting kept) []) none t (.going (.closing (r.handler.onEnd kept)) [])
  | answered (kept : r.method.Progress) (rest : List (Arrival r.method.Item)) :
      Step t (.going (.handling (.done (.ok kept))) rest) none t (.going (.awaiting kept) rest)
  | failed (cause : ServiceError) (rest : List (Arrival r.method.Item)) :
      Step t (.going (.handling (.done (.error cause))) rest) none t (.ended (.error cause))
  | finish (result : Except ServiceError r.method.Result) (rest : List (Arrival r.method.Item)) :
      Step t (.going (.closing (.done result)) rest) none t (.ended result)
  /-- the chain ends it: it has been cancelled or its time is over -/
  | cut (stage : Stage r.method.Response r.method.Progress r.method.Result)
      (rest : List (Arrival r.method.Item)) :
      Step t (.going stage rest) none t (.ended (.error .cancelled))
  | drop (stage : Stage r.method.Response r.method.Progress r.method.Result)
      (rest : List (Arrival r.method.Item)) :
      Step t (.going stage rest) none t .dropped

/-- A step of a call leaves the table alone or performs what it asks for. -/
theorem Course.Step.table_eq {r : Request} {t t' : Table} {c c' : Course r}
    {asked : Option Transaction} (h : c.Step t asked t' c') :
    (asked = none ∧ t' = t)
    ∨ ∃ op now, asked = some ⟨op, (t.perform now op).1⟩ ∧ t' = (t.perform now op).2 := by
  cases h with
  | handle rest hp => exact hp.table_eq
  | close rest hp => exact hp.table_eq
  | _ => exact .inl ⟨rfl, rfl⟩

/-! ## §3. All calls together. -/

/-- A request and how far its call has come. -/
structure Ongoing where
  request : Request
  course : Course request

/-- The call of a request that has not begun. -/
def Ongoing.start (r : Request) : Ongoing := ⟨r, .start r⟩

/-- What a call, known by its place, has asked of the store, and what it got. -/
structure Event extends Transaction where
  caller : Nat

/-- A table and the calls that share it, in the order in which they began. -/
structure System where
  table : Table
  calls : List Ongoing

namespace System

/-- A store in which nothing has happened. -/
def empty : System := ⟨.empty, []⟩

/-- What the calls are calls of, in the order in which they began. -/
def requests (s : System) : List Request := s.calls.map (·.request)

/-- One step of the whole, and what has been asked of the store if anything has. -/
inductive Step (s : System) : Option Event → System → Prop
  /-- another call begins -/
  | begin (r : Request) : Step s none ⟨s.table, s.calls ++ [.start r]⟩
  /-- one of the calls does a step -/
  | go {i : Nat} {r : Request} {c c' : Course r} {asked : Option Transaction} {t' : Table}
      (hi : s.calls[i]? = some ⟨r, c⟩) (h : c.Step s.table asked t' c') :
      Step s (asked.map fun x => ⟨x, i⟩) ⟨t', s.calls.set i ⟨r, c'⟩⟩

/-- Any number of steps, and what has been asked of the store on the way. -/
inductive Runs (s : System) : List Event → System → Prop
  | refl : Runs s [] s
  | step {trace : List Event} {s' s'' : System} {event : Option Event} (h : Runs s trace s')
      (hs : s'.Step event s'') : Runs s (trace ++ event.toList) s''

/-- What can come of an empty store without calls. -/
def Reachable (s : System) : Prop := ∃ trace, empty.Runs trace s

/-- How far a call has come does not change what it is a call of. -/
theorem requests_set {s : System} {i : Nat} {r : Request} {c : Course r}
    (hi : s.calls[i]? = some ⟨r, c⟩) (c' : Course r) (t : Table) :
    requests ⟨t, s.calls.set i ⟨r, c'⟩⟩ = s.requests := by
  unfold requests
  apply List.ext_getElem?
  intro j
  rw [List.map_set, List.getElem?_set, List.getElem?_map]
  split
  · rename_i hij
    subst hij
    obtain ⟨hlt, _⟩ := List.getElem?_eq_some_iff.1 hi
    rw [hi, List.length_map, if_pos hlt]
    rfl
  · rfl

/-- Calls begin, and none is ever forgotten. -/
theorem Step.requests_prefix {s s' : System} {event : Option Event} (h : s.Step event s') :
    s.requests <+: s'.requests := by
  cases h with
  | begin r => exact ⟨[r], by simp [requests, Ongoing.start]⟩
  | go hi _ => exact ⟨[], by rw [requests_set hi, List.append_nil]⟩

end System

end UserDirectory.Service
