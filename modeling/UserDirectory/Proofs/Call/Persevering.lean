import Mathlib.Order.RelClasses
import UserDirectory.Proofs.Call.Following
/-!
# Calls that come to their end

How many steps a program takes may depend on what the store has answered: whoever lists users sends as
many as there are.  But every step of a program leads to a part of it, and so there are no endless steps.
A call to which only so many requests are sent therefore comes to its end, unless it cancels itself or the
stream of requests stays open and silent.

Main statements:
  * `Program.wellFounded_after`: there are no endless steps;
  * `Program.perseveres_bind`, `Action.perseveres_bind`: programs that never cancel their own call;
  * `Alone.inevitably_ended_of_perseveres`, `Alone.inevitably_ended_ofAction`: calm calls come to their end.
-/

namespace UserDirectory.Call

open UserDirectory.Service (ServiceError)
open UserDirectory.Store (Operation Table)
open UserDirectory.Time (Instant)

variable {ι ο σ α β : Type}

/-! ## §1. Programs. -/

/-- What is left of a program after a step. -/
def Program.After (p' p : Program ο α) : Prop := ∃ g label g', p.Act g label g' p'

/-- A program that never cancels its own call. -/
def Program.Perseveres : Program ο α → Prop
  | .done _ => True
  | .store _ next => ∀ r, (next r).Perseveres
  | .send _ next => ∀ there, (next there).Perseveres
  | .live next => ∀ alive, (next alive).Perseveres
  | .clock next => ∀ now, (next now).Perseveres
  | .note _ next => next.Perseveres
  | .pause _ next => next.Perseveres
  | .cancel _ => False
  | .claims next => ∀ c, (next c).Perseveres
  | .enter next => ∀ refusal, (next refusal).Perseveres
  | .leave _ next => next.Perseveres

namespace Program

variable {p p' : Program ο α} {g g' : Stance ο} {label : Option Deed} {t : Table}

/-- There are no endless steps, since each leads to a part of the program. -/
theorem wellFounded_after : WellFounded (After : Program ο α → Program ο α → Prop) := by
  refine ⟨fun p => ?_⟩
  induction p with
  | done a
  | store op next ih
  | send item next ih
  | live next ih
  | clock next ih
  | claims next ih
  | enter next ih =>
    refine ⟨_, ?_⟩
    rintro p' ⟨g, label, g', hact⟩
    cases hact <;> exact ih _
  | note line next ih
  | pause ms next ih
  | cancel next ih
  | leave failure next ih =>
    refine ⟨_, ?_⟩
    rintro p' ⟨g, label, g', hact⟩
    cases hact
    exact ih

/-- Of two programs one after another, neither cancels the call. -/
theorem perseveres_bind {q : Program ο β} {f : β → Program ο α} (hq : q.Perseveres)
    (hf : ∀ b, (f b).Perseveres) : (q.bind f).Perseveres := by
  induction q with
  | done b => exact hf b
  | store op next ih
  | send item next ih
  | live next ih
  | clock next ih
  | claims next ih
  | enter next ih => exact fun r => ih r (hq r)
  | note line next ih
  | pause ms next ih
  | leave failure next ih => exact ih hq
  | cancel next ih => exact hq.elim

theorem Perseveres.act (h : p.Perseveres) (hact : p.Act g label g' p') : p'.Perseveres := by
  cases hact with
  | note line next
  | pause ms next
  | leave failure next millis => exact h
  | cancel next => exact h.elim
  | _ => exact h _

/-- Where the caller is there and the channel has room, there is a step. -/
theorem Perseveres.progress (h : p.Perseveres) (hthere : g.outbound.readerGone = false)
    (hroom : g.outbound.hasRoom = true) : p.CanGo g t := by
  cases p with
  | done a => exact .inl ⟨a, rfl⟩
  | store op next =>
    exact .inr ⟨_, g, _, _, .store op _ .epoch (t.perform .epoch op).1, ⟨rfl, rfl⟩, rfl, rfl⟩
  | send item next => exact .inr ⟨none, _, _, t, .send item _ hthere hroom, rfl, rfl, rfl⟩
  | live next => exact .inr ⟨none, g, _, t, .live _ true nofun, rfl, rfl, rfl⟩
  | clock next => exact .inr ⟨_, g, _, t, .clock _ .epoch, rfl, rfl, rfl⟩
  | note line next => exact .inr ⟨_, g, _, t, .note line _, rfl, rfl, rfl⟩
  | pause ms next => exact .inr ⟨none, g, _, t, .pause ms _, rfl, rfl, rfl⟩
  | cancel next => exact h.elim
  | claims next => exact .inr ⟨none, g, _, t, .claims _ none, rfl, rfl, rfl⟩
  | enter next => exact .inr ⟨none, _, _, t, .enter next, rfl, rfl, rfl⟩
  | leave failure next =>
    have ha := g.close_alike 0 (.ofFailure failure)
    exact .inr ⟨none, _, _, t, .leave failure next 0, rfl, ha.cancelled,
      congrArg (·.reader.ending) ha.outbound⟩

end Program

/-! ## §2. Actions. -/

namespace Action

/-- An action whose program never cancels its own call. -/
def Perseveres (a : Action ο α) : Prop := a.program.Perseveres

theorem perseveres_bind {a : Action ο β} {f : β → Action ο α} (ha : a.Perseveres)
    (hf : ∀ b, (f b).Perseveres) : Perseveres (a >>= f) :=
  Program.perseveres_bind ha fun r => by
    cases r with
    | ok b => exact hf b
    | error e => exact trivial

theorem perseveres_store (op : Operation) : Perseveres (store op : Action ο op.Reply) := fun r => by
  cases r <;> exact trivial

theorem perseveres_ensureLive : Perseveres (ensureLive : Action ο Unit) := fun alive => by
  cases alive <;> exact trivial

theorem perseveres_send (item : ο) : Perseveres (send item) := fun there => by
  cases there <;> exact trivial

end Action

/-! ## §3. Handlers. -/

/-- What is done at a stage never cancels the call. -/
def Stage.Perseveres : Stage ο σ α → Prop
  | .awaiting _ => True
  | .handling p => p.Perseveres
  | .closing p => p.Perseveres

/-- A handler none of whose programs cancels the call. -/
structure Handler.Perseveres (h : Handler ι ο σ α) : Prop where
  onItem : ∀ kept x, (h.onItem kept x).Perseveres
  onEnd : ∀ kept, (h.onEnd kept).Perseveres
  start : h.start.Perseveres

theorem Handler.perseveres_ofAction {a : Action ο α} (ha : a.Perseveres) :
    (ofAction a : Handler ι ο Unit α).Perseveres :=
  ⟨fun _ _ => trivial, fun _ => ha, ha⟩

namespace Stage

/-- What is left of a stage after a step of its program. -/
inductive After : Stage ο σ α → Stage ο σ α → Prop
  | handling {p' p : Program ο (Except ServiceError σ)} (h : p'.After p) :
      After (.handling p') (.handling p)
  | closing {p' p : Program ο (Except ServiceError α)} (h : p'.After p) :
      After (.closing p') (.closing p)

theorem wellFounded_after : WellFounded (After : Stage ο σ α → Stage ο σ α → Prop) := by
  refine ⟨fun stage => ?_⟩
  cases stage with
  | awaiting kept => exact ⟨_, nofun⟩
  | handling p =>
    induction p using Program.wellFounded_after.induction with
    | _ p ih => exact ⟨_, fun _ h => by cases h with | handling h => exact ih _ h⟩
  | closing p =>
    induction p using Program.wellFounded_after.induction with
    | _ p ih => exact ⟨_, fun _ h => by cases h with | closing h => exact ih _ h⟩

/-- More requests may be taken after this stage. -/
def Takes : Stage ο σ α → Prop
  | .closing _ => False
  | _ => True

end Stage

/-- A stream of requests that does not stay silent: it ends, or the connection fails. -/
def Inbound.Settles (inbound : Inbound ι) : Prop :=
  inbound.silent = true → ∃ cause, .error cause ∈ inbound.arrivals.map (·.content)

/-! ## §4. Calls. -/

/-- How many spots are still ahead at most before the next request is taken. -/
def Spot.ahead : Spot ο σ α → Nat
  | .fresh => 3
  | .going (.handling _) => 2
  | .going (.awaiting _) => 1
  | _ => 0

theorem Spot.ahead_going_lt (stage : Stage ο σ α) : (going stage).ahead < 3 := by
  cases stage <;> simp [ahead]

/-- The stage at which a call is, or with which it begins. -/
def Life.stage (l : Life ι ο σ α) : Stage ο σ α :=
  match l.spot with
  | .going stage => stage
  | _ => l.handler.start

theorem Life.stage_of_going {l : Life ι ο σ α} {stage : Stage ο σ α} (h : l.spot = .going stage) :
    l.stage = stage := by
  unfold Life.stage
  rw [h]

/-- What goes on without the programs: what is owed is paid, and what waits is read. -/
def Life.unsettled (l : Life ι ο σ α) : Nat := l.stance.owed.length + l.stance.outbound.waiting.length

namespace Alone

/-- A calm call that has not ended. -/
structure Busy (s : Alone ι ο σ α) : Prop where
  handler : s.life.handler.Perseveres
  calm : s.Calm
  owed : s.life.stance.AsksNothing
  delivered : s.life.Delivered
  underway : s.life.spot = .fresh ∨ ∃ stage, s.life.spot = .going stage
  stage : s.life.stage.Perseveres
  settles : s.life.stage.Takes → s.life.silent = true →
    ∃ cause, .error cause ∈ s.life.arrivals.map (·.content)

/-- What is still to be done: with the requests that are left, at the stage of the call, and without the
programs. -/
def left (l : Life ι ο σ α) : Nat × Stage ο σ α × Nat :=
  (2 * l.arrivals.length + l.spot.ahead, l.stage, l.unsettled)

/-- What comes first counts most. -/
abbrev Less : Nat × Stage ο σ α × Nat → Nat × Stage ο σ α × Nat → Prop :=
  Prod.Lex (· < ·) (Prod.Lex Stage.After (· < ·))

section

variable {s s' : Alone ι ο σ α} {l l' : Life ι ο σ α}

theorem less_of_ahead
    (h : 2 * l'.arrivals.length + l'.spot.ahead < 2 * l.arrivals.length + l.spot.ahead) :
    Less (left l') (left l) :=
  .left _ _ h

theorem less_of_after (harrivals : l'.arrivals = l.arrivals) (hahead : l'.spot.ahead = l.spot.ahead)
    (h : l'.stage.After l.stage) : Less (left l') (left l) := by
  unfold left
  rw [harrivals, hahead]
  exact .right _ (.left _ _ h)

theorem less_of_unsettled (harrivals : l'.arrivals = l.arrivals) (hspot : l'.spot = l.spot)
    (hhandler : l'.handler = l.handler) (h : l'.unsettled < l.unsettled) : Less (left l') (left l) := by
  unfold left Life.stage
  rw [harrivals, hspot, hhandler]
  exact .right _ (.right _ h)

/-- A step of a calm call ends it or leaves less to do. -/
theorem Busy.step (h : s.Busy) (hstep : s.Step s') (hcalm : s'.Calm) :
    (∃ r unsent, s'.life.spot = .ended r unsent) ∨ (s'.Busy ∧ Less (left s'.life) (left s.life)) := by
  obtain ⟨l, t⟩ := s
  obtain ⟨l', t'⟩ := s'
  obtain ⟨label, hlife, ht⟩ := hstep
  obtain ⟨hhandler, _, howed, hdelivered, hunderway, hstage, hsettles⟩ := h
  show (∃ r unsent, l'.spot = .ended r unsent) ∨ (Busy ⟨l', t'⟩ ∧ Less (left l') (left l))
  have hbusy : (l'.spot = .fresh ∨ ∃ stage, l'.spot = .going stage) → l'.stage.Perseveres →
      (l'.stage.Takes → l'.silent = true → ∃ cause, .error cause ∈ l'.arrivals.map (·.content)) →
      Busy ⟨l', t'⟩ := fun hunderway' hstage' hsettles' =>
    ⟨hlife.kin.handler ▸ hhandler, hcalm, hlife.asksNothing howed,
      hlife.delivered hdelivered, hunderway', hstage', hsettles'⟩
  cases hlife with
  | @pay d more hpaid =>
    refine .inr ⟨hbusy hunderway hstage hsettles, less_of_unsettled rfl rfl rfl ?_⟩
    show more.length + l.stance.outbound.waiting.length < l.stance.owed.length + _
    rw [hpaid, List.length_cons]
    omega
  | drift hdrift =>
    cases hdrift with
    | @read first rest hthere hwaiting =>
      refine .inr ⟨hbusy hunderway hstage hsettles, less_of_unsettled rfl rfl rfl ?_⟩
      show l.stance.owed.length + rest.length < l.stance.owed.length + l.stance.outbound.waiting.length
      rw [hwaiting, List.length_cons]
      exact Nat.lt_succ_self _
    | depart how hthere hhow =>
      exact absurd (hcalm.heard how (Outbound.ending_leave hthere how)) hhow
    | cancel hstill => cases hcalm.uncancelled
  | begin hfree hspot =>
    have hstart : l.stage = l.handler.start := by
      unfold Life.stage
      rw [hspot]
    rw [hstart] at hstage hsettles
    refine .inr ⟨hbusy (.inr ⟨_, rfl⟩) hstage hsettles, less_of_ahead (Nat.add_lt_add_left ?_ _)⟩
    rw [hspot]
    exact Spot.ahead_going_lt _
  | handle hfree hspot hact =>
    rw [Life.stage_of_going hspot] at hstage hsettles
    refine .inr ⟨hbusy (.inr ⟨_, rfl⟩) (hstage.act hact) hsettles, less_of_after rfl ?_ ?_⟩
    · rw [hspot]
      rfl
    · rw [Life.stage_of_going hspot]
      exact .handling ⟨_, _, _, hact⟩
  | close hfree hspot hact =>
    rw [Life.stage_of_going hspot] at hstage
    refine .inr ⟨hbusy (.inr ⟨_, rfl⟩) (hstage.act hact) nofun, less_of_after rfl ?_ ?_⟩
    · rw [hspot]
      rfl
    · rw [Life.stage_of_going hspot]
      exact .closing ⟨_, _, _, hact⟩
  | @take kept x delay rest hfree hspot harrivals =>
    rw [Life.stage_of_going hspot] at hsettles
    refine .inr ⟨hbusy (.inr ⟨_, rfl⟩) (hhandler.onItem kept x) fun _ hsilent => ?_, less_of_ahead ?_⟩
    · obtain ⟨cause, hcause⟩ := hsettles trivial hsilent
      rw [harrivals] at hcause
      exact ⟨cause, (List.mem_cons.1 hcause).resolve_left nofun⟩
    · rw [harrivals, hspot, List.length_cons]
      show 2 * rest.length + 2 < 2 * (rest.length + 1) + 1
      omega
  | @exhaust kept hfree hspot harrivals hsilent =>
    refine .inr ⟨hbusy (.inr ⟨_, rfl⟩) (hhandler.onEnd kept) nofun, less_of_ahead ?_⟩
    rw [hspot]
    exact Nat.lt_succ_self _
  | answered hfree hspot =>
    rw [Life.stage_of_going hspot] at hsettles
    refine .inr ⟨hbusy (.inr ⟨_, rfl⟩) trivial hsettles, less_of_ahead ?_⟩
    rw [hspot]
    exact Nat.lt_succ_self _
  | drop hfree hspot times htimes => exact absurd rfl hcalm.kept
  | deny hfree hspot cause millis => exact .inl ⟨_, _, rfl⟩
  | breakOff hfree hspot harrivals millis
  | stopTaking hfree hspot harrivals millis => exact .inl ⟨_, _, rfl⟩
  | failed hfree hspot millis
  | finish hfree hspot millis => exact .inl ⟨_, _, rfl⟩
  | cut hfree hspot hcancelled times htimes millis => exact .inl ⟨_, _, rfl⟩
  | tellFailure hfree hspot hthere
  | tellNobody hfree hspot hthere => exact .inl ⟨_, _, rfl⟩
  | shut hfree hspot hthere hread => exact .inl ⟨_, _, hspot⟩

/-- A calm call that has not ended can go on. -/
theorem Busy.progress (h : s.Busy) : ∃ s', s.Step s' ∧ s'.Calm := by
  obtain ⟨l, t⟩ := s
  obtain ⟨_, hcalm, howed, hdelivered, hunderway, hstage, hsettles⟩ := h
  obtain ⟨_, hunclosed⟩ := hdelivered.untold hunderway
  have hopen : l.stance.outbound.reader.ending = none :=
    Option.eq_none_iff_forall_ne_some.2 fun how hhow => hunclosed (hcalm.heard how hhow ▸ hhow)
  refine hcalm.progress hopen howed hdelivered fun stage hspot hthere hroom => ?_
  simp only [Life.stage_of_going hspot] at hstage hsettles
  cases stage with
  | awaiting kept =>
    -- a stream that stays open has a failure to bring
    intro harrivals
    cases hsilent : l.silent with
    | false => rfl
    | true =>
      obtain ⟨cause, hcause⟩ := hsettles trivial hsilent
      rw [harrivals] at hcause
      cases hcause
  | handling p => exact hstage.progress hthere hroom
  | closing p => exact hstage.progress hthere hroom

/-- A calm call whose handler does not cancel it comes to its end, and has done there all that its handler
does. -/
theorem inevitably_ended_of_perseveres {handler : Handler ι ο σ α} (hhandler : handler.Perseveres)
    (served : Bool) {inbound : Inbound ι} (hsettles : handler.start.Takes → inbound.Settles)
    (capacity : Nat) (enough : Option Nat) (attentive : Bool) (t : Table) :
    (start handler served inbound (.ofCapacity capacity ⟨enough, attentive, [], none⟩) t).Inevitably
      fun s => ∃ r unsent, s.life.spot = .ended r unsent
        ∧ (handler.whole (inbound.arrivals.map (·.content))).Ends false t s.life.stance.accepted
            s.table r := by
  have hcalm : (start handler served inbound
      (.ofCapacity capacity ⟨enough, attentive, [], none⟩) t).Calm :=
    ⟨rfl, nofun, nofun, fun hfresh => absurd rfl hfresh⟩
  have hstart : (start handler served inbound
      (.ofCapacity capacity ⟨enough, attentive, [], none⟩) t).Busy :=
    ⟨hhandler, hcalm, fun _ hd => absurd hd List.not_mem_nil, Life.delivered_start _ _ _ _ _ _, .inl rfl,
      hhandler.start, hsettles⟩
  have hend := inevitably_of_wellFounded (Q := fun s => ∃ r unsent, s.life.spot = .ended r unsent)
    (I := fun s b => s.Busy ∧ left s.life = b)
    (WellFounded.prod_lex Nat.lt_wfRel.wf (WellFounded.prod_lex Stage.wellFounded_after Nat.lt_wfRel.wf))
    (fun s b ⟨h, _⟩ => .inr h.progress)
    (fun s b ⟨h, hb⟩ _ s' hstep hcalm => (h.step hstep hcalm).imp_right
      fun ⟨h', hless⟩ => ⟨_, hb ▸ hless, h', rfl⟩) ⟨hstart, rfl⟩
  refine hend.following hcalm (follows_start _ served inbound capacity enough attentive t) ?_
  rintro s readings ⟨r, unsent, hspot⟩ hcalm hs
  exact ⟨r, unsent, hspot, Action.ends_iff_exists_endsAt.2 ⟨readings, hs.ends_of_calm hcalm hspot⟩⟩

/-- So does a call that only does one thing, whatever becomes of the stream of requests. -/
theorem inevitably_ended_ofAction {a : Action ο α} (ha : a.Perseveres) (served : Bool)
    (inbound : Inbound ι) (capacity : Nat) (enough : Option Nat) (attentive : Bool) (t : Table) :
    (start (.ofAction a) served inbound (.ofCapacity capacity ⟨enough, attentive, [], none⟩) t).Inevitably
      fun s => ∃ r unsent, s.life.spot = .ended r unsent
        ∧ a.Ends false t s.life.stance.accepted s.table r :=
  inevitably_ended_of_perseveres (Handler.perseveres_ofAction ha) served nofun capacity enough attentive t

end

end Alone

end UserDirectory.Call
