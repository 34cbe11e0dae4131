import UserDirectory.Proofs.Call.Ending
/-!
# Calls that change a store at most once

Wherever a call waits it can be cut short, and what it has done by then stays done.  An action that asks
only questions until it asks for a change, and for nothing after that, never waits once it may have changed
something.  So a call of it that is cut short has changed nothing.

Main statements:
  * `Program.Asks.bind_atomic`, `Program.Atomic.bind_asks`, and a rule for each action;
  * `advance_atomic`: what comes of an atomic program that is executed;
  * `Exchange.Intact.move`, `Exchange.Intact.goes`: what is kept until a call ends;
  * `allOrNothing_of_ends`: a call that fails has changed nothing.
-/

namespace UserDirectory.Call

open UserDirectory.Service (ServiceError)
open UserDirectory.Store (Operation Table)
open UserDirectory.Telemetry (Note)
open UserDirectory.Time (Instant)

variable {ι ο σ α β : Type} {allowed : Operation → Prop}

/-! ## §1. Programs. -/

namespace Program

/-- A program that waits for nothing but the store, and asks it only for what is allowed. -/
def Asks (allowed : Operation → Prop) : Program ο α → Prop
  | .done _ => True
  | .store op next => allowed op ∧ ∀ r, (next r).Asks allowed
  | .live next => ∀ alive, (next alive).Asks allowed
  | .clock next => ∀ now, (next now).Asks allowed
  | .note _ next => next.Asks allowed
  | .send .. => False
  | .pause .. => False
  | .cancel _ => False
  | .claims _ => False
  | .enter _ => False
  | .leave .. => False

/-- A program that waits for nothing but the store, and asks for nothing once it has asked for a change. -/
def Atomic : Program ο α → Prop
  | .done _ => True
  | .store op next =>
    if changes op then ∀ r, (next r).Asks fun _ => False else ∀ r, (next r).Atomic
  | .live next => ∀ alive, (next alive).Atomic
  | .clock next => ∀ now, (next now).Atomic
  | .note _ next => next.Atomic
  | .send .. => False
  | .pause .. => False
  | .cancel _ => False
  | .claims _ => False
  | .enter _ => False
  | .leave .. => False

theorem asks_bind {p : Program ο β} {f : β → Program ο α} (hp : p.Asks allowed)
    (hf : ∀ b, (f b).Asks allowed) : (p.bind f).Asks allowed := by
  induction p with
  | done b => exact hf b
  | store op next ih => exact ⟨hp.1, fun r => ih r (hp.2 r)⟩
  | live next ih
  | clock next ih => exact fun x => ih x (hp x)
  | note line next ih => exact ih hp
  | _ => exact hp.elim

/-- Before a change as many questions may be asked as they like. -/
theorem Asks.bind_atomic {p : Program ο β} {f : β → Program ο α} (hp : p.Asks (changes · = false))
    (hf : ∀ b, (f b).Atomic) : (p.bind f).Atomic := by
  induction p with
  | done b => exact hf b
  | store op next ih =>
    show if changes op then _ else _
    rw [hp.1, if_neg Bool.false_ne_true]
    exact fun r => ih r (hp.2 r)
  | live next ih
  | clock next ih => exact fun x => ih x (hp x)
  | note line next ih => exact ih hp
  | _ => exact hp.elim

theorem Asks.atomic {p : Program ο α} (hp : p.Asks fun _ => False) : p.Atomic := by
  induction p with
  | done a => exact trivial
  | store op next => exact hp.1.elim
  | live next ih
  | clock next ih => exact fun x => ih x (hp x)
  | note line next ih => exact ih hp
  | _ => exact hp.elim

/-- After a change nothing may be asked. -/
theorem Atomic.bind_asks {p : Program ο β} {f : β → Program ο α} (hp : p.Atomic)
    (hf : ∀ b, (f b).Asks fun _ => False) : (p.bind f).Atomic := by
  induction p with
  | done b => exact (hf b).atomic
  | store op next ih =>
    unfold Atomic at hp
    show if changes op then _ else _
    cases hop : changes op with
    | true =>
      rw [hop, if_pos rfl] at hp
      exact fun r => asks_bind (hp r) hf
    | false =>
      rw [hop, if_neg Bool.false_ne_true] at hp
      exact fun r => ih r (hp r)
  | live next ih
  | clock next ih => exact fun x => ih x (hp x)
  | note line next ih => exact ih hp
  | _ => exact hp.elim

end Program

/-! ## §2. Actions. -/

namespace Action

/-- An action that waits for nothing but the store, and asks it only for what is allowed. -/
def Asks (allowed : Operation → Prop) (a : Action ο α) : Prop := a.program.Asks allowed

/-- An action that asks for nothing once it has asked for a change. -/
def Atomic (a : Action ο α) : Prop := a.program.Atomic

theorem asks_pure (a : α) : (pure a : Action ο α).Asks allowed := trivial

theorem asks_throw (e : ServiceError) : (throw e : Action ο α).Asks allowed := trivial

theorem asks_bind {a : Action ο β} {f : β → Action ο α} (ha : a.Asks allowed)
    (hf : ∀ b, (f b).Asks allowed) : (a >>= f).Asks allowed :=
  Program.asks_bind ha fun r => by
    cases r with
    | ok b => exact hf b
    | error e => exact trivial

theorem asks_ite {c : Prop} [Decidable c] {a b : Action ο α} (ha : a.Asks allowed)
    (hb : b.Asks allowed) : (if c then a else b).Asks allowed := by
  split
  · exact ha
  · exact hb

theorem asks_attempt {op : Operation} (h : allowed op) :
    (attempt op : Action ο op.Outcome).Asks allowed := ⟨h, fun _ => trivial⟩

theorem asks_store {op : Operation} (h : allowed op) : (store op : Action ο op.Reply).Asks allowed :=
  asks_bind (asks_attempt h) fun r => by
    cases r with
    | ok r => exact asks_pure r
    | error e => exact asks_throw _

theorem asks_note (line : Note) : (note line : Action ο Unit).Asks allowed := trivial

theorem asks_ensureLive : (ensureLive : Action ο Unit).Asks allowed :=
  fun alive => by cases alive <;> exact trivial

/-- Before a change as many questions may be asked as they like. -/
theorem Asks.bind_atomic {a : Action ο β} {f : β → Action ο α} (ha : a.Asks (changes · = false))
    (hf : ∀ b, (f b).Atomic) : (a >>= f).Atomic :=
  Program.Asks.bind_atomic ha fun r => by
    cases r with
    | ok b => exact hf b
    | error e => exact trivial

/-- After a change nothing may be asked. -/
theorem Atomic.bind_asks {a : Action ο β} {f : β → Action ο α} (ha : a.Atomic)
    (hf : ∀ b, (f b).Asks fun _ => False) : (a >>= f).Atomic :=
  Program.Atomic.bind_asks ha fun r => by
    cases r with
    | ok b => exact hf b
    | error e => exact trivial

theorem atomic_throw (e : ServiceError) : (throw e : Action ο α).Atomic := trivial

theorem atomic_store (op : Operation) : (store op : Action ο op.Reply).Atomic := by
  have hattempt : (attempt op : Action ο op.Outcome).Atomic := by
    show if changes op then _ else _
    split <;> exact fun _ => trivial
  refine hattempt.bind_asks fun r => ?_
  cases r with
  | ok r => exact asks_pure r
  | error e => exact asks_throw _

theorem atomic_ite {c : Prop} [Decidable c] {a b : Action ο α} (ha : a.Atomic) (hb : b.Atomic) :
    (if c then a else b).Atomic := by
  split
  · exact ha
  · exact hb

end Action

/-- What was to be done has failed, and the table is as before. -/
def FailsUnchanged (t t' : Table) (r : Except ServiceError α) : Prop := (∃ e, r = .error e) ∧ t' = t

section

variable {hindered : Bool} {t t' : Table} {sent : List ο} {r : Except ServiceError α}

/-- Where a check fails that changes nothing, nothing has changed; else the rest is done. -/
theorem Action.failsUnchanged_or_of_check {a : Action ο β} {f : β → Action ο α}
    {c : Except ServiceError β} (ha : ∀ sent t' r, a.Ends hindered t sent t' r ↔ sent = [] ∧ t' = t ∧ r = c)
    (h : (a >>= f).Ends hindered t sent t' r) :
    FailsUnchanged t t' r ∨ ∃ b, c = .ok b ∧ (f b).Ends hindered t sent t' r := by
  have hchecked := (ends_check ha).1 h
  cases c with
  | error e => exact .inl ⟨⟨e, hchecked.2.2⟩, hchecked.2.1⟩
  | ok b => exact .inr ⟨b, rfl, hchecked⟩

/-- Where a call is found to be cancelled, nothing has changed; else the rest is done. -/
theorem Action.failsUnchanged_or_of_ensureLive {f : Unit → Action ο α}
    (h : (ensureLive >>= f).Ends hindered t sent t' r) :
    FailsUnchanged t t' r ∨ (f ()).Ends hindered t sent t' r := by
  rcases ends_ensureLive_bind.1 h with h | ⟨_, _, ht', hr⟩
  · exact .inr h
  · exact .inl ⟨⟨_, hr⟩, ht'⟩

end

/-! ## §3. Programs that are executed. -/

/-- A program that asks for nothing is done at once, and leaves the store alone. -/
theorem advance_of_asks_nothing {p : Program ο α} (h : p.Asks fun _ => False) (w : World)
    (s : CallState ο) :
    ∃ b w' s', advance p w s = (.finished b, w', s') ∧ LeavesAlone w s w' s'
      ∧ ∀ t, p.Ends true t [] t b := by
  induction p generalizing w s with
  | done a => exact ⟨a, w, s, rfl, ⟨rfl, rfl⟩, fun t => ⟨rfl, rfl, rfl⟩⟩
  | store op next => exact h.1.elim
  | live next ih =>
    obtain ⟨b, w', s', hdone, hleaves, hends⟩ := ih (!s.isCancelled w) (h _) w s
    refine ⟨b, w', s', hdone, hleaves, fun t => ?_⟩
    cases hlive : !s.isCancelled w with
    | true => exact .inl (hlive ▸ hends t)
    | false => exact .inr ⟨rfl, hlive ▸ hends t⟩
  | clock next ih =>
    obtain ⟨b, w', s', hdone, hleaves, hends⟩ := ih w.wall (h _) w.readWall.2 s
    exact ⟨b, w', s', hdone, ⟨hleaves.backend, hleaves.hold⟩, fun t => ⟨_, hends t⟩⟩
  | note line next ih =>
    obtain ⟨b, w', s', hdone, hleaves, hends⟩ := ih h (s.write w [line]) s
    exact ⟨b, w', s', hdone, ⟨hleaves.backend, hleaves.hold⟩, hends⟩
  | _ => exact h.elim

/-- What comes of an atomic program: it is at its end, or it waits and has changed nothing. -/
inductive Program.EndsOrWaits (t : Table) (p : Program ο α) : Progress ο α × World × CallState ο → Prop
  | finished {a : α} {w : World} {s : CallState ο} {t' : Table} (hw : w.Holds t')
      (h : p.Ends true t [] t' a) : EndsOrWaits t p (.finished a, w, s)
  | waiting {p' : Program ο α} {w : World} {s : CallState ο} (hw : w.Holds t) (hs : s.hold.Harmless)
      (hatomic : p'.Atomic) (h : ∀ t' a, p'.Ends true t [] t' a → p.Ends true t [] t' a) :
      EndsOrWaits t p (.waiting p', w, s)

section

variable {w w' : World} {s : CallState ο} {t : Table}

theorem Program.EndsOrWaits.imp {p p' : Program ο α} {x : Progress ο α × World × CallState ο}
    (h : p'.EndsOrWaits t x) (himp : ∀ t' a, p'.Ends true t [] t' a → p.Ends true t [] t' a) :
    p.EndsOrWaits t x := by
  cases h with
  | finished hw h => exact .finished hw (himp _ _ h)
  | waiting hw hs hatomic h => exact .waiting hw hs hatomic fun t' a ha => himp t' a (h t' a ha)

/-- An atomic program that is executed waits before it changes anything. -/
theorem advance_atomic {p : Program ο α} (h : p.Atomic) (hw : w.Holds t) (hs : s.hold.Harmless) :
    p.EndsOrWaits t (advance p w s) := by
  induction p generalizing w s with
  | done a => exact .finished hw ⟨rfl, rfl, rfl⟩
  | store op next ih =>
    unfold advance
    rcases hw.attempt hs s.spans op with ⟨w', h', hattempt, hw', hs', _⟩
      | ⟨w', h', hattempt, hw', hs', _⟩
    · rw [hattempt]
      unfold Program.Atomic at h
      cases hop : changes op with
      | true =>
        -- the table has been changed, and the rest is done at once
        rw [hop, if_pos rfl] at h
        obtain ⟨a, w'', s'', hdone, hleaves, hends⟩ :=
          advance_of_asks_nothing (h (t.perform w.wall op).1) w' { s with hold := h' }
        simp only [hdone]
        exact .finished (hleaves.holds hw') ⟨w.wall, hends _⟩
      | false =>
        rw [hop, if_neg Bool.false_ne_true] at h
        have hsame := perform_of_changes_eq_false hop t w.wall
        rw [hsame] at hw'
        refine (ih _ (h _) hw' hs').imp fun t' a ha => ⟨w.wall, ?_⟩
        rw [hsame]
        exact ha
    · -- the store is slow, and nothing has been done yet
      rw [hattempt]
      exact .waiting hw' hs' h fun _ _ ha => ha
  | live next ih =>
    refine (ih _ (h _) hw hs).imp fun t' a ha => ?_
    cases hlive : !s.isCancelled w with
    | true => exact .inl (hlive ▸ ha)
    | false => exact .inr ⟨rfl, hlive ▸ ha⟩
  | clock next ih =>
    exact (ih w.wall (h _) (w := w.readWall.2) (hw.of_backend rfl) hs).imp fun _ _ ha => ⟨_, ha⟩
  | note line next ih =>
    exact (ih h (w := s.write w [line]) (hw.of_backend rfl) hs).imp fun _ _ ha => ha
  | _ => exact h.elim

/-! ## §4. Calls that are executed. -/

/-- A call has ended as an action does, or it has failed and changed nothing. -/
def Decided (a : Action ο α) (t : Table) (r : Except ServiceError α) (w : World) : Prop :=
  ∃ t', w.Holds t' ∧ (a.Ends true t [] t' r ∨ FailsUnchanged t t' r)

theorem Decided.of_holds {a : Action ο α} {r : Except ServiceError α} (h : Decided a t r w)
    (hsame : ∀ t, w.Holds t → w'.Holds t) : Decided a t r w' := by
  obtain ⟨t', hw, hends⟩ := h
  exact ⟨t', hsame t' hw, hends⟩

theorem decided_of_error {a : Action ο α} (hw : w.Holds t) (e : ServiceError) :
    Decided a t (.error e) w := ⟨t, hw, .inr ⟨⟨e, rfl⟩, rfl⟩⟩

/-- A call has still to end as an action does, and has changed nothing. -/
structure Running.Intact (a : Action ο α) (t : Table) (c : Running ι ο σ α) (w : World) : Prop where
  table : w.Holds t
  harmless : c.state.hold.Harmless
  left : ∃ p, c.stage = .closing p ∧ p.Atomic
    ∧ ∀ t' r, p.Ends true t [] t' r → a.Ends true t [] t' r

/-- What comes of looking at a call: it has changed nothing, or has ended. -/
def Poll.Intact (a : Action ο α) (t : Table) (x : Poll ι ο σ α × World) : Prop :=
  match x.1 with
  | .waiting c => c.Intact a t x.2
  | .ended r _ => Decided a t r x.2

namespace Running

variable {a : Action ο α} {c : Running ι ο σ α}

theorem Intact.of_leavesAlone {s' : CallState ο} (h : c.Intact a t w)
    (hleaves : LeavesAlone w c.state w' s') : Intact a t { c with state := s' } w' :=
  ⟨hleaves.holds h.table, hleaves.harmless h.harmless, h.left⟩

theorem Intact.work (h : c.Intact a t w) : Poll.Intact a t (c.work w) := by
  obtain ⟨handler, stage, inbound, s⟩ := c
  obtain ⟨hw, hs, p, rfl, hatomic, hends⟩ := h
  show Poll.Intact a t (closing handler inbound p w s)
  have hcome := advance_atomic hatomic hw hs
  unfold closing
  generalize advance p w s = x at hcome
  cases hcome with
  | finished hw' h => exact ⟨_, hw', .inl (hends _ _ h)⟩
  | waiting hw' hs' hatomic' h =>
    exact ⟨hw', hs', _, rfl, hatomic', fun t' r hr => hends t' r (h t' r hr)⟩

theorem Intact.poll (h : c.Intact a t w) : Poll.Intact a t (c.poll w) := by
  cases hcut : c.state.isCancelled w || c.state.isOverdue w with
  | true =>
    obtain ⟨s', w', hpoll, hleaves⟩ := c.poll_of_cut w hcut
    rw [hpoll]
    exact decided_of_error (hleaves.holds h.table) .cancelled
  | false =>
    obtain ⟨hlive, hearly⟩ := Bool.or_eq_false_iff.1 hcut
    have hwork := h.work
    unfold Running.poll
    rw [hlive, hearly]
    rcases hx : c.work w with ⟨poll, w'⟩
    rw [hx] at hwork
    cases poll with
    | waiting c' => exact hwork
    | ended r s' =>
      -- the outermost pass ends with the call
      obtain ⟨s'', w'', hend, hleaves⟩ := endWith_leavesAlone (ι := ι) (σ := σ) r s' w'
      show Poll.Intact a t (endWith r s' w')
      rw [hend]
      exact Decided.of_holds hwork fun _ => hleaves.holds

end Running

namespace Exchange

/-- A call has changed nothing, or has ended. -/
def Intact (a : Action ο α) (t : Table) (x : Exchange ι ο σ α × World) : Prop :=
  match x.1.phase with
  | .fresh c => c.Intact a t x.2
  | .running c => c.Intact a t x.2
  | .ended r _ => Decided a t r x.2

variable {a : Action ο α} {e : Exchange ι ο σ α} {c : Running ι ο σ α}

theorem intact_conclude {r : Except ServiceError α} (h : Decided a t r w) :
    Intact a t (e.conclude r s w) := by
  unfold conclude
  split
  · unfold deliver
    simp only
    split
    · exact h.of_holds fun _ hw => hw.of_backend rfl
    · exact h
  · exact h

theorem intact_look (h : c.Intact a t w) : Intact a t (e.look c w) := by
  have hlook : Poll.Intact a t (if e.manner = .bare then c.work w else c.poll w) := by
    split
    · exact h.work
    · exact h.poll
  unfold look
  simp only
  rcases hx : (if e.manner = .bare then c.work w else c.poll w) with ⟨poll, w'⟩
  rw [hx] at hlook
  cases poll with
  | waiting c' => exact hlook
  | ended r s' => exact intact_conclude hlook

theorem Intact.work (h : Intact a t (e, w)) : Intact a t (e.work w) := by
  obtain ⟨manner, cancelAt, entered, phase⟩ := e
  unfold Exchange.work
  cases phase with
  | ended r s => exact h
  | running c => exact intact_look h
  | fresh c =>
    have hc : c.Intact a t w := h
    simp only
    split
    · exact intact_look hc
    · have hleaves := c.state.enter_leavesAlone w
      unfold Running.enter
      rcases hx : c.state.enter w with ⟨refusal, w', s'⟩
      rw [hx] at hleaves
      cases refusal with
      | none => exact intact_look (hc.of_leavesAlone hleaves)
      | some cause => exact intact_conclude (decided_of_error (hleaves.holds hc.table) cause)

/-- What changes the state of a call changes nothing else, if it leaves alone what the call waits for. -/
theorem Intact.mapState (h : Intact a t (e, w)) {f : CallState ο → CallState ο}
    (hf : ∀ s, (f s).hold = s.hold) : Intact a t (e.mapState f, w) := by
  obtain ⟨manner, cancelAt, entered, phase⟩ := e
  cases phase with
  | fresh c => exact Running.Intact.of_leavesAlone h ⟨rfl, hf _⟩
  | running c => exact Running.Intact.of_leavesAlone h ⟨rfl, hf _⟩
  | ended r s => exact h

/-- Whatever is done with a call, it has changed nothing until it ends. -/
theorem Intact.move {x y : Exchange ι ο σ α × World} (h : Intact a t x) (hmove : Move x y) :
    Intact a t y := by
  cases hmove with
  | work e w => exact h.work
  | read e w =>
    have hread := h.mapState (f := fun s => { s with outbound := s.outbound.read e.hasEnded }) fun _ => rfl
    unfold read
    simp only
    split
    · exact hread.mapState fun _ => rfl
    · exact hread
  | cancel e w => exact h.mapState fun _ => rfl
  | leave e w how hhow => exact h.mapState fun _ => rfl

end Exchange

end

/-- A call goes on and its caller too, and meanwhile anything happens by which the table stays as it is:
time goes by, and others ask the store. -/
inductive Exchange.GoesUndisturbed (x : Exchange ι ο σ α × World) : Exchange ι ο σ α × World → Prop
  | refl : GoesUndisturbed x x
  | move {y z : Exchange ι ο σ α × World} (h : GoesUndisturbed x y) (hmove : Exchange.Move y z) :
      GoesUndisturbed x z
  | meanwhile {e : Exchange ι ο σ α} {w : World} (h : GoesUndisturbed x (e, w)) (w' : World)
      (hsame : ∀ t, w.Holds t → w'.Holds t) : GoesUndisturbed x (e, w')

/-- Others may ask the store, as long as they ask for no change. -/
theorem Exchange.GoesUndisturbed.others {x : Exchange ι ο σ α × World} {e : Exchange ι ο σ α} {w : World}
    (h : GoesUndisturbed x (e, w)) (now : Instant) (op : Operation) (hop : changes op = false) :
    GoesUndisturbed x (e, { w with backend := (w.backend.perform now op).2.1 }) :=
  h.meanwhile _ fun t hw => by
    have hsame := hw.others now op
    rwa [perform_of_changes_eq_false hop] at hsame

/-- A call that has the store for itself is undisturbed. -/
theorem Exchange.Goes.undisturbed {x y : Exchange ι ο σ α × World} (h : Goes x y) :
    GoesUndisturbed x y := by
  induction h with
  | refl => exact .refl
  | move _ hmove ih => exact ih.move hmove
  | elapse _ w' hbackend ih => exact ih.meanwhile w' fun _ hw => hw.of_backend hbackend

theorem Exchange.Intact.goes {a : Action ο α} {t : Table} {x y : Exchange ι ο σ α × World}
    (h : Intact a t x) (hgoes : GoesUndisturbed x y) : Intact a t y := by
  induction hgoes with
  | refl => exact h
  | move _ hmove ih => exact ih.move hmove
  | @meanwhile e w _ w' hsame ih =>
    obtain ⟨manner, cancelAt, entered, phase⟩ := e
    cases phase with
    | fresh c => exact ⟨hsame t ih.table, ih.harmless, ih.left⟩
    | running c => exact ⟨hsame t ih.table, ih.harmless, ih.left⟩
    | ended r s => exact Decided.of_holds ih hsame

/-! ## §5. All or nothing. -/

/-- A call of an action that nobody else's change comes between: if it fails it has changed nothing, and if
it gives `x` and leaves `t'`, then `Done x t'` holds. -/
structure AllOrNothing (t : Table) (a : Action Empty α) (Done : α → Table → Prop) : Prop where
  /-- whenever the action asks whether the call goes on, the call may have been cancelled -/
  ends : ∀ t' r, a.Ends true t [] t' r → FailsUnchanged t t' r ∨ ∃ x, r = .ok x ∧ Done x t'
  /-- whenever the call waits, it may be cut short; until it ends, it has changed nothing -/
  executed : ∀ (manner : Manner) (cancelAt : Option Nat) (inbound : Inbound Empty) (context : Context)
    (tie : Tie) (cancelled : Bool) (outbound : Outbound Empty) (w w' : World)
    (e : Exchange Empty Empty Unit α), w.Holds t →
    Exchange.GoesUndisturbed (.start manner cancelAt (.start (.ofAction a) inbound
      { CallState.start context tie outbound w.clock with cancelled }), w) (e, w') →
    match e.phase with
    | .fresh _ => w'.Holds t
    | .running _ => w'.Holds t
    | .ended (.error _) _ => w'.Holds t
    | .ended (.ok x) _ => ∃ t', w'.Holds t' ∧ Done x t'

/-- What holds of a result may be weakened. -/
theorem AllOrNothing.imp {a : Action Empty α} {t : Table} {Done Done' : α → Table → Prop}
    (h : AllOrNothing t a Done) (himp : ∀ x t', Done x t' → Done' x t') : AllOrNothing t a Done' where
  ends t' r hr := (h.ends t' r hr).imp_right fun ⟨x, hx, hdone⟩ => ⟨x, hx, himp x t' hdone⟩
  executed manner cancelAt inbound context tie cancelled outbound w w' e hw hgoes := by
    have hend := h.executed manner cancelAt inbound context tie cancelled outbound w w' e hw hgoes
    split at hend
    · exact hend
    · exact hend
    · exact hend
    · obtain ⟨t', hw', hdone⟩ := hend
      exact ⟨t', hw', himp _ t' hdone⟩

/-- A call of an atomic action is all or nothing if the action is. -/
theorem allOrNothing_of_ends {a : Action Empty α} {t : Table} {Done : α → Table → Prop}
    (hatomic : a.Atomic) (hends : ∀ t' r, a.Ends true t [] t' r →
      FailsUnchanged t t' r ∨ ∃ x, r = .ok x ∧ Done x t') : AllOrNothing t a Done where
  ends := hends
  executed manner cancelAt inbound context tie cancelled outbound w w' e hw hgoes := by
    have hstart : Exchange.Intact a t (.start manner cancelAt (.start (.ofAction a) inbound
        { CallState.start context tie outbound w.clock with cancelled }), w) :=
      ⟨hw, nofun, a.program, rfl, hatomic, fun _ _ h => h⟩
    have hintact := hstart.goes hgoes
    unfold Exchange.Intact at hintact
    cases hphase : e.phase with
    | fresh c =>
      simp only [hphase] at hintact
      exact hintact.table
    | running c =>
      simp only [hphase] at hintact
      exact hintact.table
    | ended r s =>
      simp only [hphase] at hintact
      obtain ⟨t', hw', hr⟩ := hintact
      rcases hr.elim (hends t' r) .inl with ⟨⟨e, rfl⟩, rfl⟩ | ⟨x, rfl, hdone⟩
      · exact hw'
      · exact ⟨t', hw', hdone⟩

end UserDirectory.Call
