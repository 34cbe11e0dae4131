import UserDirectory.Proofs.Call.Living
/-!
# Calls and their callers live

A call and its caller take turns, in whatever order.  What they do are steps in the life of the call.

Main statements:
  * `Exchange.work_lives`, `Exchange.read_lives`: what a call does that goes on, and its caller;
  * `Exchange.Moves.lives`: what they do in whatever turns;
  * `Exchange.settle_moves`, `Exchange.giveUp_moves`: the turns that calls are given.
-/

namespace UserDirectory.Call

open UserDirectory.Service (ServiceError Status)

variable {ι ο σ α : Type}

/-! ## §1. Calls and their callers. -/

/-- How far a call has come shows in a life. -/
def Phase.Shown : Phase ι ο σ α → Life ι ο σ α → Prop
  | fresh c, l => c.Shown l ∧ c.stage = c.handler.start ∧ l.spot = .fresh
  | running c, l => c.Shown l ∧ l.spot = .going c.stage ∧ l.admitted = true
  | ended r s, l => s.Shown l.stance ∧ l.stance.owed = [] ∧ l.spot = .ended r none

/-- A call that is made through the chain and its caller show in a life. -/
structure Exchange.Shown (e : Exchange ι ο σ α) (l : Life ι ο σ α) : Prop where
  chained : e.manner ≠ .bare
  served : l.served = decide (e.manner = .served)
  phase : e.phase.Shown l
  /-- whoever works has been let through -/
  admitted : e.entered = true → l.admitted = true

/-- What has come of a call and its caller has come of it by steps. -/
def Exchange.Lives (l : Life ι ο σ α) (w : World) (s : CallState ο) (x : Exchange ι ο σ α × World) :
    Prop :=
  ∃ deeds l', l.Runs deeds l' ∧ Leads w s deeds x.2 x.1.state ∧ x.1.Shown l'

namespace Exchange

section

variable {e : Exchange ι ο σ α} {l l' : Life ι ο σ α} {w w' : World} {s s' : CallState ο}
  {x : Exchange ι ο σ α × World}

/-- A call that has been made shows in a life that has not begun. -/
theorem shown_start (handler : Handler ι ο σ α) {manner : Manner} (hchained : manner ≠ .bare)
    (cancelAt : Option Nat) (inbound : Inbound ι) (context : Context) (tie : Tie) (cancelled : Bool)
    (outbound : Outbound ο) (now : Nat)
    (hdrained : outbound.readerGone = true → outbound.waiting = []) :
    Shown (.start manner cancelAt (.start handler inbound
        { CallState.start context tie outbound now with cancelled }))
      (.start handler (decide (manner = .served)) inbound outbound) where
  chained := hchained
  served := rfl
  phase := ⟨⟨rfl, rfl, rfl, ⟨rfl, rfl, hdrained⟩, rfl⟩, rfl, rfl⟩
  admitted := nofun

theorem Lives.of_runs {deeds : List Deed} (h : l.Runs deeds l') (hleads : Leads w s deeds w' s')
    (hx : Lives l' w' s' x) : Lives l w s x := by
  obtain ⟨deeds', l'', hruns, hleads', hshown⟩ := hx
  exact ⟨deeds ++ deeds', l'', h.trans hruns, hleads.trans hleads', hshown⟩

theorem Shown.state (h : e.Shown l) : e.state.Shown l.stance ∧ l.stance.owed = [] := by
  obtain ⟨manner, cancelAt, entered, phase⟩ := e
  cases phase with
  | fresh c => exact ⟨h.phase.1.stance, h.phase.1.free⟩
  | running c => exact ⟨h.phase.1.stance, h.phase.1.free⟩
  | ended r s => exact ⟨h.phase.1, h.phase.2.1⟩

/-- Where a call stands changes only as far as its state shows it. -/
theorem Shown.mapState (h : e.Shown l) {f : CallState ο → CallState ο} {g : Stance ο}
    (hf : (f e.state).Shown g) (hfree : g.owed = []) :
    (e.mapState f).Shown { l with stance := g } := by
  obtain ⟨manner, cancelAt, entered, phase⟩ := e
  obtain ⟨hchained, hserved, hphase, hadmitted⟩ := h
  refine ⟨hchained, hserved, ?_, hadmitted⟩
  cases phase with
  | fresh c =>
    obtain ⟨⟨hhandler, hsilent, harrivals, _, _⟩, hstart, hspot⟩ := hphase
    exact ⟨⟨hhandler, hsilent, harrivals, hf, hfree⟩, hstart, hspot⟩
  | running c =>
    obtain ⟨⟨hhandler, hsilent, harrivals, _, _⟩, hspot⟩ := hphase
    exact ⟨⟨hhandler, hsilent, harrivals, hf, hfree⟩, hspot⟩
  | ended r s => exact ⟨hf, hfree, hphase.2.2⟩

theorem state_mapState (e : Exchange ι ο σ α) (f : CallState ο → CallState ο) :
    (e.mapState f).state = f e.state := by
  obtain ⟨manner, cancelAt, entered, phase⟩ := e
  cases phase <;> rfl

/-- What befalls a call at any time, as it shows in the state of the call. -/
theorem Shown.drifts (h : e.Shown l) {f : CallState ο → CallState ο} {g : Stance ο}
    (hdrifts : l.stance.Drifts g) (hf : (f e.state).Shown g) (hfree : g.owed = [])
    (hleads : Leads w e.state [] w (f e.state)) : Lives l w e.state (e.mapState f, w) := by
  refine ⟨[], _, .of_drifts l hdrifts, ?_, h.mapState hf hfree⟩
  rw [state_mapState]
  exact hleads

/-- A call ends as what has come of it says; if it is to, the caller learns why it failed. -/
theorem conclude_lives {r : Except ServiceError α} (hchained : e.manner ≠ .bare)
    (hserved : l.served = decide (e.manner = .served)) (hadmitted : e.entered = true → l.admitted = true)
    (hs : s.Shown l.stance)
    (hfree : l.stance.owed = []) (hspot : l.spot = .ended r (l.unsent r)) :
    Lives l w s (e.conclude r s w) := by
  -- there is nothing to tell
  have hsilent : l.unsent r = none → Lives l w s ({ e with phase := .ended r s }, w) := fun hnone =>
    ⟨[], l, .refl, .refl, hchained, hserved, ⟨hs, hfree, hnone ▸ hspot⟩, hadmitted⟩
  unfold conclude
  split
  · rename_i cause hmanner
    have htrue : l.served = true := by rw [hserved, hmanner]; rfl
    have hsome : l.unsent (.error cause) = some cause.status := by
      unfold Life.unsent
      rw [htrue]
      rfl
    rw [hsome] at hspot
    obtain ⟨hdrifts, hs'⟩ := hs.makeRoom
    have hleads : Leads w s [] w { s with outbound := s.outbound.makeRoom } :=
      .of_quiet ⟨rfl, rfl⟩ rfl rfl rfl rfl
    refine .of_runs (.of_drifts l hdrifts) hleads ?_
    unfold deliver
    simp only
    split
    · -- the caller has gone
      rename_i hgone
      refine ⟨[], _, (Life.Step.tellNobody (l := { l with
          stance := { l.stance with outbound := s.outbound.makeRoom } }) hfree hspot hgone).runs,
        .of_quiet ⟨rfl, rfl⟩ rfl rfl ?_ rfl, hchained, hserved, ⟨hs', hfree, rfl⟩, hadmitted⟩
      exact (World.passNotes_write w [] [.callerGone]).trans (List.append_nil _)
    · rename_i hthere
      rw [Bool.not_eq_true] at hthere
      refine ⟨[], _, (Life.Step.tellFailure (l := { l with
          stance := { l.stance with outbound := s.outbound.makeRoom } }) hfree hspot hthere).runs,
        .of_quiet ⟨rfl, rfl⟩ rfl rfl rfl rfl, hchained, hserved,
        ⟨⟨hs.depth, rfl, fun hgone => ?_⟩, hfree, rfl⟩, hadmitted⟩
      exact absurd (hthere.symm.trans hgone) Bool.false_ne_true
  · rename_i r _ _ hother
    refine hsilent ?_
    unfold Life.unsent
    cases r with
    | ok a => split <;> rfl
    | error cause =>
      have hfalse : l.served = false := by
        rw [hserved]
        exact decide_eq_false fun hmanner => hother cause hmanner rfl
      rw [hfalse]
      rfl

/-- A call that has been let through and is looked at does nothing but steps. -/
theorem look_lives {c : Running ι ο σ α} (hchained : e.manner ≠ .bare)
    (hserved : l.served = decide (e.manner = .served)) (hc : c.Shown l)
    (hspot : l.spot = .going c.stage) (hadmitted : l.admitted = true) :
    Lives l w c.state (e.look c w) := by
  obtain ⟨deeds, l', hruns, hleads, hshown⟩ := Running.poll_lives (w := w) hc hspot
  have hserved' : l'.served = decide (e.manner = .served) := hruns.kin.served.trans hserved
  have hadmitted' : l'.admitted = true := hruns.kin.admitted hadmitted
  unfold look
  simp only [if_neg hchained]
  rcases hx : c.poll w with ⟨poll, w'⟩
  rw [hx] at hleads hshown
  cases poll with
  | waiting c' =>
    exact ⟨deeds, l', hruns, hleads, hchained, hserved', ⟨hshown.1, hshown.2, hadmitted'⟩,
      fun _ => hadmitted'⟩
  | ended r s' =>
    obtain ⟨hs', hfree', hspot'⟩ := hshown
    refine .of_runs hruns hleads ?_
    exact conclude_lives (e := { e with entered := e.entered || e.letsWork c.state w }) hchained
      hserved' (fun _ => hadmitted') hs' hfree' hspot'

/-- A call that is let go on does nothing but steps. -/
theorem work_lives (h : e.Shown l) : Lives l w e.state (e.work w) := by
  obtain ⟨manner, cancelAt, entered, phase⟩ := e
  obtain ⟨hchained, hserved, hphase, hadmitted⟩ := h
  cases phase with
  | ended r s => exact ⟨[], l, .refl, .refl, hchained, hserved, hphase, hadmitted⟩
  | running c => exact look_lives hchained hserved hphase.1 hphase.2.1 hphase.2.2
  | fresh c =>
    obtain ⟨⟨hhandler, hsilent, harrivals, hs, hfree⟩, hstart, hspot⟩ := hphase
    have henter := CallState.enter_owes hs w
    unfold work Running.enter
    simp only [if_neg hchained]
    rcases hx : c.state.enter w with ⟨refusal, w', s'⟩
    rw [hx] at henter
    rcases henter with ⟨hnone, hs', owed, howed, hleads⟩ | ⟨cause, millis, hsome, hs', owed, howed, hleads⟩
    · -- the handler begins
      cases hnone
      have hbegun : l.Runs owed { l with
          admitted := true, spot := .going l.handler.start, stance := l.stance.begin.paid } := by
        rw [hfree, List.nil_append] at howed
        rw [← howed]
        exact .step (.begin hfree hspot) (Life.runs_pay { l with
          admitted := true, spot := .going l.handler.start, stance := l.stance.begin.paid } _)
      refine .of_runs hbegun hleads (look_lives (c := { c with state := s' }) hchained hserved
        ⟨hhandler, hsilent, harrivals, hs'.paid, rfl⟩ ?_ rfl)
      rw [hstart, hhandler]
    · -- the chain has refused the call, whose handler never begins
      cases hsome
      obtain ⟨deeds, l', hruns, hleads', hs'', hfree', hspot'⟩ := Life.lives_conclude hfree
        (.deny hfree hspot cause millis) ⟨hs', owed, howed, hleads⟩
      exact .of_runs hruns hleads'
        (conclude_lives hchained (hruns.kin.served.trans hserved) (hruns.kin.admitted ∘ hadmitted) hs''
          hfree' hspot')

theorem Lives.trans {y : Exchange ι ο σ α × World} (h : Lives l w s x)
    (h' : ∀ l', x.1.Shown l' → Lives l' x.2 x.1.state y) : Lives l w s y := by
  obtain ⟨deeds, l', hruns, hleads, hshown⟩ := h
  exact .of_runs hruns hleads (h' l' hshown)

theorem cancel_lives (h : e.Shown l) : Lives l w e.state (e.cancel, w) := by
  obtain ⟨hs, hfree⟩ := h.state
  exact h.drifts l.stance.drifts_cancel ⟨hs.depth, hs.outbound, hs.drained⟩ hfree
    (.of_quiet ⟨rfl, rfl⟩ rfl rfl rfl rfl)

/-- The caller leaves before the end, unless gone already. -/
theorem leave_lives (h : e.Shown l) {how : ReaderEnd} (hhow : how ≠ .closed) :
    Lives l w e.state
      (e.mapState fun s => { s with outbound := s.outbound.leave how }, w) := by
  obtain ⟨hs, hfree⟩ := h.state
  have hleads : Leads w e.state [] w
      { e.state with outbound := e.state.outbound.leave how } := .of_quiet ⟨rfl, rfl⟩ rfl rfl rfl rfl
  refine h.drifts (g := { l.stance with outbound := e.state.outbound.leave how }) ?_
    ⟨hs.depth, rfl, fun _ => rfl⟩ hfree hleads
  cases hgone : e.state.outbound.readerGone with
  | true =>
    rw [Outbound.leave_of_readerGone hgone (hs.drained hgone), ← hs.outbound]
    exact .refl
  | false =>
    rw [← hs.outbound] at hgone ⊢
    exact .step (.depart how hgone hhow) .refl

/-- The caller reads; one who has read everything there will ever be stops reading. -/
theorem readOnly_lives (h : e.Shown l) : Lives l w e.state
    (e.mapState fun s => { s with outbound := s.outbound.read e.hasEnded }, w) := by
  obtain ⟨hs, hfree⟩ := h.state
  have hleads : ∀ outbound, Leads w e.state [] w { e.state with outbound } := fun _ =>
    .of_quiet ⟨rfl, rfl⟩ rfl rfl rfl rfl
  have hread : l.stance.Drifts { l.stance with outbound := e.state.outbound.read false } := by
    rw [← hs.outbound]
    exact l.stance.drifts_read
  have hshown : ∀ closed, CallState.Shown
      { e.state with outbound := e.state.outbound.read closed }
      { l.stance with outbound := e.state.outbound.read closed } := fun closed =>
    ⟨hs.depth, rfl, Outbound.drained_read hs.drained closed⟩
  cases hended : e.hasEnded with
  | false => exact h.drifts hread (hshown false) hfree (hleads _)
  | true =>
    have hafter := h.mapState (f := fun s => { s with outbound := s.outbound.read true })
      (hshown true) hfree
    rcases e.state.outbound.read_true with hsame | ⟨hthere, hempty, hleave⟩
    · refine h.drifts ?_ (hshown true) hfree (hleads _)
      rw [hsame]
      exact hread
    · -- nothing more can come
      have hspot : ∃ r, l.spot = .ended r none := by
        obtain ⟨manner, cancelAt, entered, phase⟩ := e
        cases phase with
        | ended r s => exact ⟨r, h.phase.2.2⟩
        | _ => cases hended
      obtain ⟨r, hspot⟩ := hspot
      have hshut := (Life.Step.shut (l := { l with
        stance := { l.stance with outbound := e.state.outbound.read false } }) hfree hspot hthere
        hempty).runs
      rw [hleave] at hafter
      refine ⟨_, _, (Life.Runs.of_drifts l hread).trans hshut, ?_, hafter⟩
      rw [state_mapState]
      exact hleads _

/-- The caller reads, and one who leaves the server cancels the call. -/
theorem read_lives (h : e.Shown l) : Lives l w e.state (e.read, w) := by
  unfold read
  simp only
  split
  · exact (readOnly_lives h).trans fun l' h' => cancel_lives h'
  · exact readOnly_lives h

/-! ## §2. Turns. -/

/-- What can be done with a call: it is let go on, or something happens on the side of the caller. -/
inductive Move : Exchange ι ο σ α × World → Exchange ι ο σ α × World → Prop
  | work (e : Exchange ι ο σ α) (w : World) : Move (e, w) (e.work w)
  | read (e : Exchange ι ο σ α) (w : World) : Move (e, w) (e.read, w)
  | cancel (e : Exchange ι ο σ α) (w : World) : Move (e, w) (e.cancel, w)
  | leave (e : Exchange ι ο σ α) (w : World) (how : ReaderEnd) (h : how ≠ .closed) :
      Move (e, w) (e.mapState fun s => { s with outbound := s.outbound.leave how }, w)

/-- Any number of moves. -/
inductive Moves : Exchange ι ο σ α × World → Exchange ι ο σ α × World → Prop
  | refl {x : Exchange ι ο σ α × World} : Moves x x
  | step {x y z : Exchange ι ο σ α × World} (h : Move x y) (hs : Moves y z) : Moves x z

theorem Move.moves {x y : Exchange ι ο σ α × World} (h : Move x y) : Moves x y := .step h .refl

theorem Moves.trans {x y z : Exchange ι ο σ α × World} (h : Moves x y) (h' : Moves y z) :
    Moves x z := by
  induction h with
  | refl => exact h'
  | step hmove _ ih => exact .step hmove (ih h')

theorem Move.lives {x y : Exchange ι ο σ α × World} (hmove : Move x y) (h : x.1.Shown l) :
    Lives l x.2 x.1.state y := by
  cases hmove with
  | work e w => exact work_lives h
  | read e w => exact read_lives h
  | cancel e w => exact cancel_lives h
  | leave e w how hhow => exact leave_lives h hhow

/-- A call and its caller do nothing but steps. -/
theorem Moves.lives {x y : Exchange ι ο σ α × World} (hmoves : Moves x y) (h : x.1.Shown l) :
    Lives l x.2 x.1.state y := by
  induction hmoves generalizing l with
  | refl => exact ⟨[], l, .refl, .refl, h⟩
  | step hmove _ ih => exact (hmove.lives h).trans fun l' h' => ih h'

/-- First the call goes on, and then the caller. -/
theorem turn_moves (e : Exchange ι ο σ α) (w : World) : Moves (e, w) (e.turn w) :=
  .step (.work e w) (.step (.read (e.work w).1 (e.work w).2) .refl)

/-- All that a call does at an instant are moves. -/
theorem settle_moves (e : Exchange ι ο σ α) (w : World) : Moves (e, w) (e.settle w) := by
  have hdue : Moves (e, w) (e.cancelWhenDue w.clock, w) := by
    unfold cancelWhenDue
    split
    · exact (Move.cancel e w).moves
    · exact .refl
  have hturn := hdue.trans (turn_moves (e.cancelWhenDue w.clock) w)
  unfold settle
  simp only
  split
  · exact hturn.trans (turn_moves _ _)
  · exact hturn

/-- The call is dropped where it stands. -/
def drop (e : Exchange ι ο σ α) (w : World) : Exchange ι ο σ α × World :=
  let (w, s) := e.state.abandonAll w
  (e.mapState fun _ => s, w)

/-- Losing patience are moves, and for a call that the server does not go on with, being dropped after
that. -/
theorem giveUp_moves (e : Exchange ι ο σ α) (w : World) :
    Moves (e, w) (e.giveUp w)
    ∨ ∃ e', e'.hasEnded = false ∧ Moves (e, w) (e', w) ∧ e.giveUp w = e'.drop w := by
  unfold giveUp
  split
  · exact .inl .refl
  · rename_i hrunning
    have hleave := Move.leave e w .abandoned nofun
    simp only
    split
    · exact .inl (.step hleave (.step (.cancel _ w) (settle_moves _ w)))
    · refine .inr ⟨_, ?_, hleave.moves, rfl⟩
      obtain ⟨manner, cancelAt, entered, phase⟩ := e
      cases phase with
      | ended r s => exact absurd rfl hrunning
      | fresh c => rfl
      | running c => rfl

/-- A call that is dropped gives up every pass. -/
theorem drop_lives (h : e.Shown l) (hrunning : e.hasEnded = false) :
    ∃ deeds l', l.Runs deeds l' ∧ Leads w e.state deeds (e.drop w).2 (e.drop w).1.state
      ∧ l'.spot = .dropped ∧ l'.stance.owed = [] := by
  obtain ⟨hs, hfree⟩ := h.state
  obtain ⟨times, htimes, _, owed, howed, hleads⟩ :=
    CallState.abandonTo_owes hs 0 e.state.passes.length w
  have hspot : l.spot = .fresh ∨ ∃ stage, l.spot = .going stage := by
    obtain ⟨manner, cancelAt, entered, phase⟩ := e
    cases phase with
    | fresh c => exact .inl h.phase.2.2
    | running c => exact .inr ⟨c.stage, h.phase.2.1⟩
    | ended r s => cases hrunning
  have hdrop := Life.Step.drop hfree hspot times (by rw [htimes, hs.depth]; omega)
  rw [hfree, List.nil_append] at howed
  refine ⟨owed, { l with spot := .dropped, stance := (l.stance.abandon times).paid }, ?_, ?_, rfl,
    rfl⟩
  · rw [← howed]
    exact .step hdrop (Life.runs_pay { l with
      spot := .dropped, stance := (l.stance.abandon times).paid } _)
  · unfold drop
    simp only [state_mapState]
    exact hleads

end

end Exchange

end UserDirectory.Call
