import UserDirectory.Proofs.Call.Deeds
/-!
# Calls that are executed live

A call that is looked at goes on as far as it can, and the caller reads what there is.  All that are
steps in the life of a call, and what it has done on the way can be read off the world.

Main statements:
  * `Stance.drifts_read`: what the caller does who reads;
  * `advance_lives`: what a program does that is executed;
  * `Running.poll_lives`: what a call does whenever it is looked at.
-/

namespace UserDirectory.Call

open UserDirectory.Service (ServiceError Status receive_cases)
open UserDirectory.Store (Operation)

variable {ι ο σ α β : Type}

/-! ## §1. The caller. -/

/-- Any number of things that befall a call at any time. -/
inductive Stance.Drifts : Stance ο → Stance ο → Prop
  | refl {g : Stance ο} : Drifts g g
  | step {g g' g'' : Stance ο} (h : g.Drift g') (hs : Drifts g' g'') : Drifts g g''

section

variable {g g' g'' : Stance ο} {o : Outbound ο}

theorem Stance.Drifts.trans (h : g.Drifts g') (h' : g'.Drifts g'') : g.Drifts g'' := by
  induction h with
  | refl => exact h'
  | step hdrift _ ih => exact .step hdrift (ih h')

/-- A call may have been cancelled already. -/
theorem Stance.drifts_cancel (g : Stance ο) : g.Drifts { g with cancelled := true } := by
  obtain ⟨depth, owed, cancelled, outbound, accepted⟩ := g
  cases cancelled with
  | false => exact .step (.cancel rfl) .refl
  | true => exact .refl

/-- The caller reads one response after another. -/
theorem Stance.drifts_take {waiting : List (Response ο)} (hthere : g.outbound.readerGone = false)
    (hwaiting : g.outbound.waiting = waiting) :
    g.Drifts { g with outbound := { g.outbound with
      reader := (g.outbound.reader.take waiting).1
      waiting := (g.outbound.reader.take waiting).2 } } := by
  induction waiting generalizing g with
  | nil =>
    obtain ⟨depth, owed, cancelled, ⟨_, capacity, reader⟩, accepted⟩ := g
    cases hwaiting
    exact .refl
  | cons first rest ih =>
    unfold Reader.take
    split
    · obtain ⟨depth, owed, cancelled, ⟨_, capacity, reader⟩, accepted⟩ := g
      cases hwaiting
      exact .refl
    · exact .step (.read hthere hwaiting)
        (ih (g := { g with outbound := g.outbound.readFirst first rest }) hthere rfl)

theorem Reader.ending_take (r : Reader ο) (waiting : List (Response ο)) :
    (r.take waiting).1.ending = r.ending := by
  induction waiting generalizing r with
  | nil => rfl
  | cons first rest ih =>
    unfold Reader.take
    split
    · rfl
    · exact ih _

/-- Whoever has not had enough has read all there was. -/
theorem Reader.take_of_not_hasEnough {r : Reader ο} {waiting : List (Response ο)}
    (h : (r.take waiting).1.hasEnough = false) : (r.take waiting).2 = [] := by
  induction waiting generalizing r with
  | nil => rfl
  | cons first rest ih =>
    unfold Reader.take at h ⊢
    split
    · rename_i henough
      rw [if_pos henough, henough] at h
      cases h
    · rename_i henough
      rw [if_neg henough] at h
      exact ih h

/-- What is read, and by whom, before the caller finds that nothing more can come. -/
theorem Stance.drifts_read (g : Stance ο) :
    g.Drifts { g with outbound := g.outbound.read false } := by
  unfold Outbound.read
  cases hthere : g.outbound.readerGone with
  | true => exact .refl
  | false =>
    have htake := Stance.drifts_take hthere rfl
    simp only [Bool.false_eq_true, if_false]
    split
    · -- it was enough
      have hstill : (g.outbound.reader.take g.outbound.waiting).1.ending.isSome = false :=
        (congrArg Option.isSome (Reader.ending_take _ _)).trans hthere
      exact htake.trans (.step (.depart .dropped hstill nofun) .refl)
    · exact htake

/-- A caller who finds that nothing more can come leaves having read everything. -/
theorem Outbound.read_true (o : Outbound ο) :
    o.read true = o.read false
    ∨ ((o.read false).readerGone = false ∧ (o.read false).waiting = []
      ∧ o.read true = (o.read false).leave .closed) := by
  unfold Outbound.read
  cases hthere : o.readerGone with
  | true => exact .inl rfl
  | false =>
    simp only [Bool.false_eq_true, if_false, if_true]
    cases henough : (o.reader.take o.waiting).1.hasEnough with
    | true => exact .inl rfl
    | false =>
      refine .inr ⟨?_, Reader.take_of_not_hasEnough henough, rfl⟩
      exact (congrArg Option.isSome (Reader.ending_take _ _)).trans hthere

/-- Nothing waits for a caller who has left. -/
theorem Outbound.drained_read (h : o.readerGone = true → o.waiting = []) (closed : Bool) :
    (o.read closed).readerGone = true → (o.read closed).waiting = [] := by
  unfold Outbound.read
  cases hthere : o.readerGone with
  | true => exact fun _ => h hthere
  | false =>
    simp only [Bool.false_eq_true, if_false]
    split
    · exact fun _ => rfl
    · split
      · exact fun _ => rfl
      · intro hgone
        have hstill : (o.reader.take o.waiting).1.ending.isSome = false :=
          (congrArg Option.isSome (Reader.ending_take _ _)).trans hthere
        exact absurd (hstill.symm.trans hgone) Bool.false_ne_true

theorem Outbound.makeRoom_cases (o : Outbound ο) : o.makeRoom = o ∨ o.makeRoom = o.read false := by
  unfold Outbound.makeRoom
  split
  · exact .inl rfl
  · exact .inr rfl

/-- A caller who makes room reads. -/
theorem CallState.Shown.makeRoom {s : CallState ο} (hs : s.Shown g) :
    g.Drifts { g with outbound := s.outbound.makeRoom }
      ∧ CallState.Shown { s with outbound := s.outbound.makeRoom }
          { g with outbound := s.outbound.makeRoom } := by
  rcases s.outbound.makeRoom_cases with hroom | hroom
  · rw [hroom]
    refine ⟨?_, hs.depth, rfl, hs.drained⟩
    rw [← hs.outbound]
    exact .refl
  · rw [hroom]
    refine ⟨?_, hs.depth, rfl, Outbound.drained_read hs.drained false⟩
    rw [← hs.outbound]
    exact g.drifts_read

/-- A caller who has left cannot leave again. -/
theorem Outbound.leave_of_readerGone (h : o.readerGone = true) (hdrained : o.waiting = [])
    (how : ReaderEnd) : o.leave how = o := by
  obtain ⟨waiting, capacity, ⟨enough, attentive, received, ending⟩⟩ := o
  cases hdrained
  cases ending with
  | none => cases h
  | some e => rfl

end

/-! ## §2. Programs. -/

/-- What is left when a call has paid what it owes. -/
def Stance.paid (g : Stance ο) : Stance ο := { g with owed := [] }

theorem CallState.Shown.paid {s : CallState ο} {g : Stance ο} (h : s.Shown g) : s.Shown g.paid :=
  ⟨h.depth, h.outbound, h.drained⟩

/-- Any number of steps of a program, and what it has done on the way. -/
inductive Program.Acts : Stance ο → Program ο α → List Deed → Stance ο → Program ο α → Prop
  | refl {g : Stance ο} {p : Program ο α} : Acts g p [] g p
  | pay {g g' : Stance ο} {p p' : Program ο α} {d : Deed} {more deeds : List Deed}
      (h : g.owed = d :: more) (hs : Acts { g with owed := more } p deeds g' p') :
      Acts g p (d :: deeds) g' p'
  | drift {g g' g'' : Stance ο} {p p' : Program ο α} {deeds : List Deed} (h : g.Drift g')
      (hs : Acts g' p deeds g'' p') : Acts g p deeds g'' p'
  | act {g g' g'' : Stance ο} {p p' p'' : Program ο α} {label : Option Deed} {deeds : List Deed}
      (hfree : g.owed = []) (h : p.Act g label g' p') (hs : Acts g' p' deeds g'' p'') :
      Acts g p (label.toList ++ deeds) g'' p''

section

variable {g g' g'' : Stance ο} {p p' p'' : Program ο α} {deeds deeds' : List Deed}

theorem Program.Acts.of_drifts (h : g.Drifts g') (hs : Acts g' p deeds g'' p') :
    Acts g p deeds g'' p' := by
  induction h with
  | refl => exact hs
  | step hdrift _ ih => exact .drift hdrift (ih hs)

theorem Program.Acts.of_paid {owed : List Deed} (howed : g.owed = owed)
    (hs : Acts g.paid p deeds g' p') : Acts g p (owed ++ deeds) g' p' := by
  induction owed generalizing g with
  | nil =>
    obtain ⟨depth, _, cancelled, outbound, accepted⟩ := g
    cases howed
    exact hs
  | cons d more ih => exact .pay howed (ih (g := { g with owed := more }) rfl hs)

end

/-- What has come of a program has come of it by steps. -/
def Program.Lives (g : Stance ο) (p : Program ο β) (w : World) (s : CallState ο)
    (x : Progress ο β × World × CallState ο) : Prop :=
  ∃ deeds g', x.2.2.Shown g' ∧ g'.owed = [] ∧ Leads w s deeds x.2.1 x.2.2
    ∧ Program.Acts g p deeds g' x.1.rest

section

variable {g g' : Stance ο} {p p' : Program ο β} {w w' : World} {s s' : CallState ο}
  {x : Progress ο β × World × CallState ο}

/-- A step that leaves nothing to pay. -/
theorem Program.Lives.act {label : Option Deed} (hfree : g.owed = []) (h : p.Act g label g' p')
    (hleads : Leads w s label.toList w' s') (hx : p'.Lives g' w' s' x) : p.Lives g w s x := by
  obtain ⟨deeds, g'', hshown, hfree', hleads', hacts⟩ := hx
  exact ⟨_, g'', hshown, hfree', hleads.trans hleads', .act hfree h hacts⟩

/-- A step of the chain; what belongs to it is done at once. -/
theorem Program.Lives.owing (hfree : g.owed = []) (h : p.Act g none g' p')
    (howes : Owes w s g w' s' g') (hx : p'.Lives g'.paid w' s' x) : p.Lives g w s x := by
  obtain ⟨hshown', owed, howed, hleads⟩ := howes
  obtain ⟨deeds, g'', hshown, hfree', hleads', hacts⟩ := hx
  rw [hfree, List.nil_append] at howed
  exact ⟨owed ++ deeds, g'', hshown, hfree', hleads.trans hleads',
    .act hfree h (.of_paid howed hacts)⟩

theorem Program.Lives.of_drifts (h : g.Drifts g') (hx : p.Lives g' w s x) : p.Lives g w s x := by
  obtain ⟨deeds, g'', hshown, hfree, hleads, hacts⟩ := hx
  exact ⟨deeds, g'', hshown, hfree, hleads, .of_drifts h hacts⟩

/-- Something about the call has changed that concerns nobody else. -/
theorem Program.Lives.of_leads (h : Leads w s [] w' s') (hx : p.Lives g w' s' x) :
    p.Lives g w s x := by
  obtain ⟨deeds, g'', hshown, hfree, hleads, hacts⟩ := hx
  exact ⟨deeds, g'', hshown, hfree, h.trans hleads, hacts⟩

/-- A program that waits. -/
theorem Program.Lives.wait (hs : s'.Shown g) (hfree : g.owed = []) (hleads : Leads w s [] w' s') :
    p.Lives g w s (.waiting p, w', s') :=
  ⟨[], g, hs, hfree, hleads, .refl⟩

end

/-- A program that is executed does nothing but steps. -/
theorem advance_lives (p : Program ο β) {w : World} {s : CallState ο} {g : Stance ο}
    (hs : s.Shown g) (hfree : g.owed = []) : p.Lives g w s (advance p w s) := by
  induction p generalizing w s g with
  | done b => exact ⟨[], g, hs, hfree, .refl, .refl⟩
  | store op next ih =>
    have hattempt := World.attempt_leads s w op
    unfold advance
    rcases hx : w.attempt s.spans s.hold op with ⟨outcome, w', h'⟩
    rw [hx] at hattempt
    have hs' : CallState.Shown { s with hold := h' } g := ⟨hs.depth, hs.outbound, hs.drained⟩
    cases outcome with
    | none => exact .wait hs' hfree hattempt
    | some r => exact .act hfree (.store op next w.wall r) hattempt (ih r hs' hfree)
  | send item next ih =>
    obtain ⟨hdrifts, hs'⟩ := hs.makeRoom
    have hleads : Leads w s [] w { s with outbound := s.outbound.makeRoom } :=
      .of_quiet ⟨rfl, rfl⟩ rfl rfl rfl rfl
    unfold advance
    simp only
    refine .of_drifts hdrifts (.of_leads hleads ?_)
    split
    · -- nobody reads any more
      rename_i hgone
      exact .act hfree (.sendGone item next hgone) .refl (ih false hs' hfree)
    · rename_i hthere
      rw [Bool.not_eq_true] at hthere
      split
      · rename_i hroom
        have hpush : Leads w { s with outbound := s.outbound.makeRoom } [] w
            { s with outbound := s.outbound.makeRoom.push (.ok item) } := .of_quiet ⟨rfl, rfl⟩ rfl rfl rfl rfl
        refine .act hfree (.send item next hthere hroom) hpush
          (ih true ⟨hs.depth, rfl, fun hgone => ?_⟩ hfree)
        exact absurd (hthere.symm.trans hgone) Bool.false_ne_true
      · -- there is no room, and the program waits for it
        exact .wait hs' hfree .refl
  | live next ih =>
    unfold advance
    cases hcancelled : s.isCancelled w with
    | true =>
      -- that the call has been cancelled shows now
      refine .of_drifts g.drifts_cancel (.act hfree (.live next false fun _ => rfl) .refl ?_)
      exact ih false ⟨hs.depth, hs.outbound, hs.drained⟩ hfree
    | false => exact .act hfree (.live next true fun h => Bool.noConfusion h) .refl (ih true hs hfree)
  | clock next ih => exact .act hfree (.clock next w.wall) (.read s w) (ih w.wall hs hfree)
  | note n next ih => exact .act hfree (.note n next) (.tell s w n) (ih hs hfree)
  | pause ms next ih =>
    have hleads : ∀ wake, Leads w s [] w { s with hold := { s.hold with wake } } := fun wake =>
      ⟨rfl, rfl, (List.append_nil _).symm, fun t hw hs => ⟨t, hw, hs, rfl, rfl⟩⟩
    unfold advance World.wait
    simp only
    by_cases hwake : s.hold.wake.getD (w.clock + ms) ≤ w.clock
    · simp only [hwake, if_true]
      exact .act hfree (.pause ms next) (hleads _) (ih ⟨hs.depth, hs.outbound, hs.drained⟩ hfree)
    · simp only [hwake, if_false]
      exact .wait ⟨hs.depth, hs.outbound, hs.drained⟩ hfree (hleads _)
  | cancel next ih =>
    -- the call gives way, and goes on when it is looked at again
    have hleads : Leads w s [] w { s with cancelled := true } := .of_quiet ⟨rfl, rfl⟩ rfl rfl rfl rfl
    have hs' : CallState.Shown { s with cancelled := true } { g with cancelled := true } :=
      ⟨hs.depth, hs.outbound, hs.drained⟩
    exact .act hfree (.cancel next) .refl (.wait hs' hfree hleads)
  | claims next ih => exact .act hfree (.claims next s.claims) .refl (ih _ hs hfree)
  | enter next ih =>
    unfold advance
    rcases CallState.enter_owes hs w with ⟨hnone, howes⟩ | ⟨cause, millis, hsome, howes⟩
    · simp only [hnone]
      exact .owing hfree (.enter next) howes (ih none howes.1.paid rfl)
    · simp only [hsome]
      exact .owing hfree (.enterDenied next cause millis) howes (ih _ howes.1.paid rfl)
  | leave failure next ih =>
    obtain ⟨millis, howes⟩ := CallState.finish_owes hs w failure
    exact .owing hfree (.leave failure next millis) howes (ih howes.1.paid rfl)

/-! ## §3. Handlers. -/

/-- The steps of the program for a message are steps of the call. -/
theorem Life.Runs.handling (l : Life ι ο σ α) {g g' : Stance ο} {deeds : List Deed}
    {p p' : Program ο (Except ServiceError σ)} (h : Program.Acts g p deeds g' p') :
    Runs { l with spot := .going (.handling p), stance := g } deeds
      { l with spot := .going (.handling p'), stance := g' } := by
  induction h with
  | refl => exact .refl
  | pay howed _ ih => exact .step (.pay howed) ih
  | drift hdrift _ ih => exact .step (.drift hdrift) ih
  | act hfree hact _ ih => exact .step (.handle hfree rfl hact) ih

/-- The steps of the last program are steps of the call. -/
theorem Life.Runs.closing (l : Life ι ο σ α) {g g' : Stance ο} {deeds : List Deed}
    {p p' : Program ο (Except ServiceError α)} (h : Program.Acts g p deeds g' p') :
    Runs { l with spot := .going (.closing p), stance := g } deeds
      { l with spot := .going (.closing p'), stance := g' } := by
  induction h with
  | refl => exact .refl
  | pay howed _ ih => exact .step (.pay howed) ih
  | drift hdrift _ ih => exact .step (.drift hdrift) ih
  | act hfree hact _ ih => exact .step (.close hfree rfl hact) ih

/-- What befalls a call at any time are steps of it. -/
theorem Life.Runs.of_drifts (l : Life ι ο σ α) {g g' : Stance ο} (h : g.Drifts g') :
    Runs { l with stance := g } [] { l with stance := g' } := by
  induction h with
  | refl => exact .refl
  | step hdrift _ ih => exact .step (.drift hdrift) ih

/-- A call as it is executed shows in a life. -/
structure Running.Shown (c : Running ι ο σ α) (l : Life ι ο σ α) : Prop where
  handler : l.handler = c.handler
  silent : l.silent = c.inbound.silent
  arrivals : l.arrivals = c.inbound.arrivals
  stance : c.state.Shown l.stance
  free : l.stance.owed = []

/-- The state of a call that has been looked at. -/
def Poll.state : Poll ι ο σ α → CallState ο
  | waiting c => c.state
  | ended _ s => s

/-- What has come of a handler shows in a life: it waits, or it may end now with its result. -/
def Poll.Shown : Poll ι ο σ α → Life ι ο σ α → Prop
  | waiting c, l => c.Shown l ∧ l.spot = .going c.stage
  | ended r s, l => s.Shown l.stance ∧ l.stance.owed = [] ∧ ∀ millis, l.Step none (l.finish millis r)

/-- What has come of a handler has come of it by steps. -/
def Life.Works (l : Life ι ο σ α) (w : World) (s : CallState ο) (x : Poll ι ο σ α × World) : Prop :=
  ∃ deeds l', l.Runs deeds l' ∧ Leads w s deeds x.2 x.1.state ∧ x.1.Shown l'

section

variable {l l' : Life ι ο σ α} {w w' : World} {s s' : CallState ο} {x : Poll ι ο σ α × World}

theorem Life.Works.of_runs {deeds : List Deed} (h : l.Runs deeds l') (hleads : Leads w s deeds w' s')
    (hx : l'.Works w' s' x) : l.Works w s x := by
  obtain ⟨deeds', l'', hruns, hleads', hshown⟩ := hx
  exact ⟨deeds ++ deeds', l'', h.trans hruns, hleads.trans hleads', hshown⟩

theorem Life.Works.now (hleads : Leads w s [] x.2 x.1.state) (h : x.1.Shown l) : l.Works w s x :=
  ⟨[], l, .refl, hleads, h⟩

/-- What is noted about a receiver is not about passes. -/
theorem isOfPass_receive (i : Inbound ι) (cancelled : Bool) (now : Nat) :
    (i.receive cancelled now).2.1.filter Telemetry.Note.isOfPass = [] := by
  rcases receive_cases i cancelled now with hreceive | ⟨_, _, hreceive⟩ | ⟨due, hreceive⟩
    | ⟨x, delay, rest, _, hreceive⟩ | ⟨cause, delay, rest, _, hreceive⟩
  · rw [hreceive]; rfl
  · rw [hreceive]; rfl
  · rw [hreceive]; rfl
  · rw [hreceive]; rfl
  · rw [hreceive]
    unfold inboundNotes
    simp only
    split <;> rfl

/-- The end of a call, executed. -/
theorem closing_works {i : Inbound ι} (p : Program ο (Except ServiceError α))
    (hsilent : l.silent = i.silent) (harrivals : l.arrivals = i.arrivals)
    (hs : s.Shown l.stance) (hfree : l.stance.owed = []) (hspot : l.spot = .going (.closing p)) :
    l.Works w s (Running.closing l.handler i p w s) := by
  obtain ⟨deeds, g, hshown, hfree', hleads, hacts⟩ := advance_lives p (w := w) hs hfree
  have hruns := Life.Runs.closing l hacts
  rw [← hspot] at hruns
  unfold Running.closing
  rcases hx : advance p w s with ⟨progress, w', s'⟩
  rw [hx] at hshown hleads hruns
  cases progress with
  | finished r =>
    exact ⟨deeds, _, hruns, hleads, hshown, hfree', fun millis => .finish hfree' rfl millis⟩
  | waiting p' => exact ⟨deeds, _, hruns, hleads, ⟨rfl, hsilent, harrivals, hshown, hfree'⟩, rfl⟩

/-- The messages that are there are taken one after another. -/
theorem serve_works (arrivals : List (Arrival ι)) {i : Inbound ι} (kept : σ)
    (hsilent : l.silent = i.silent) (hall : arrivals = i.arrivals) (harrivals : l.arrivals = i.arrivals)
    (hs : s.Shown l.stance) (hfree : l.stance.owed = []) (hspot : l.spot = .going (.awaiting kept)) :
    l.Works w s (Running.serve l.handler arrivals i kept w s) := by
  induction hn : arrivals.length using Nat.strongRecOn generalizing arrivals i kept w s l with
  | _ n ih =>
    have hquiet := isOfPass_receive i (s.isCancelled w) w.clock
    have hnothing : Leads w s [] (s.write w []) s := .write rfl s w
    unfold Running.serve
    rcases receive_cases i (s.isCancelled w) w.clock with hreceive | ⟨hnone, hends, hreceive⟩
      | ⟨due, hreceive⟩ | ⟨x, delay, rest, hmore, hreceive⟩ | ⟨cause, delay, rest, hmore, hreceive⟩
    · -- nothing more is taken in a call that has been cancelled
      simp only [hreceive]
      refine .of_runs (.of_drifts l l.stance.drifts_cancel) .refl (.now hnothing ?_)
      exact ⟨⟨hs.depth, hs.outbound, hs.drained⟩, hfree, fun millis =>
        .stopTaking (l := { l with stance := { l.stance with cancelled := true } }) hfree hspot rfl
          millis⟩
    · -- the stream is at its end
      simp only [hreceive]
      have hstep := Life.Step.exhaust hfree hspot (harrivals.trans hnone) (hsilent.trans hends)
      refine .of_runs hstep.runs hnothing ?_
      exact closing_works (l := { l with spot := .going (.closing (l.handler.onEnd kept)) }) _
        hsilent harrivals hs hfree rfl
    · -- nothing has come yet
      simp only [hreceive]
      exact .now hnothing ⟨⟨rfl, hsilent, harrivals, hs, hfree⟩, hspot⟩
    · -- a message is taken, and the program for it goes on as far as it can
      simp only [hreceive]
      rw [hmore] at harrivals hall
      have htake := (Life.Step.take hfree hspot harrivals).runs
      obtain ⟨deeds, g, hshown, hfree', hleads, hacts⟩ :=
        advance_lives (l.handler.onItem kept x) (w := s.write w []) hs hfree
      have hruns := htake.trans
        (Life.Runs.handling { l with arrivals := rest, taken := l.taken ++ [x] } hacts)
      have hleads' := hnothing.trans hleads
      rcases hx : advance (l.handler.onItem kept x) (s.write w []) s with ⟨progress, w', s'⟩
      rw [hx] at hshown hleads' hruns
      cases progress with
      | waiting p => exact ⟨_, _, hruns, hleads', ⟨rfl, hsilent, rfl, hshown, hfree'⟩, rfl⟩
      | finished outcome =>
        cases outcome with
        | error cause =>
          exact ⟨_, _, hruns, hleads', hshown, hfree', fun millis => .failed hfree' rfl millis⟩
        | ok kept' =>
          -- the message has been answered, and the next one is waited for
          have hanswered := hruns.trans (Life.Step.answered hfree' rfl).runs
          rw [Option.toList_none, List.append_nil] at hanswered
          refine .of_runs hanswered hleads' ?_
          cases hall
          have hless : rest.length < n := by
            rw [← hn]
            exact Nat.lt_succ_self _
          exact ih rest.length hless rest kept' hsilent rfl rfl hshown hfree' rfl rfl
    · -- the connection has failed
      rw [hreceive] at hquiet
      simp only [hreceive]
      exact .now (.write hquiet s w) ⟨hs, hfree, fun millis =>
        .breakOff hfree hspot (harrivals.trans hmore) millis⟩

/-- A call that is let go on does nothing but steps. -/
theorem Running.work_works {c : Running ι ο σ α} (hc : c.Shown l) (hspot : l.spot = .going c.stage) :
    l.Works w c.state (c.work w) := by
  obtain ⟨handler, stage, i, s⟩ := c
  obtain ⟨rfl, hsilent, harrivals, hs, hfree⟩ := hc
  unfold Running.work
  cases stage with
  | awaiting kept => exact serve_works i.arrivals kept hsilent rfl harrivals hs hfree hspot
  | closing p => exact closing_works p hsilent harrivals hs hfree hspot
  | handling p =>
    obtain ⟨deeds, g, hshown, hfree', hleads, hacts⟩ := advance_lives p (w := w) hs hfree
    have hruns := Life.Runs.handling l hacts
    rw [← hspot] at hruns
    simp only
    rcases hx : advance p w s with ⟨progress, w', s'⟩
    rw [hx] at hshown hleads hruns
    cases progress with
    | waiting p' => exact ⟨deeds, _, hruns, hleads, ⟨rfl, hsilent, harrivals, hshown, hfree'⟩, rfl⟩
    | finished outcome =>
      cases outcome with
      | error cause =>
        exact ⟨deeds, _, hruns, hleads, hshown, hfree', fun millis => .failed hfree' rfl millis⟩
      | ok kept =>
        have hanswered := hruns.trans (Life.Step.answered hfree' rfl).runs
        rw [Option.toList_none, List.append_nil] at hanswered
        refine .of_runs hanswered hleads ?_
        exact serve_works (l := { l with spot := .going (.awaiting kept), stance := g }) i.arrivals
          kept hsilent rfl harrivals hshown hfree' rfl

end

/-! ## §4. Looking at a call. -/

/-- What is still to be sent to the caller of a call that has ended with a result. -/
def Life.unsent (l : Life ι ο σ α) (r : Except ServiceError α) : Option Status :=
  if l.served then (Running.failureOf r).map ServiceError.status else none

/-- What has come of a call shows in a life. -/
def Poll.ShownAfter : Poll ι ο σ α → Life ι ο σ α → Prop
  | waiting c, l => c.Shown l ∧ l.spot = .going c.stage
  | ended r s, l => s.Shown l.stance ∧ l.stance.owed = [] ∧ l.spot = .ended r (l.unsent r)

/-- What has come of a call has come of it by steps. -/
def Life.Lives (l : Life ι ο σ α) (w : World) (s : CallState ο) (x : Poll ι ο σ α × World) : Prop :=
  ∃ deeds l', l.Runs deeds l' ∧ Leads w s deeds x.2 x.1.state ∧ x.1.ShownAfter l'

section

variable {l l' : Life ι ο σ α} {w w' : World} {s s' : CallState ο} {x : Poll ι ο σ α × World}

/-- A call concludes, and all that belongs to that is done at once. -/
theorem Life.lives_conclude {g : Stance ο} {r : Except ServiceError α} (hfree : l.stance.owed = [])
    (hstep : l.Step none (l.conclude g r)) (howes : Owes w s l.stance w' s' g) :
    l.Lives w s (.ended r s', w') := by
  obtain ⟨hshown, owed, howed, hleads⟩ := howes
  rw [hfree, List.nil_append] at howed
  have hpaid := runs_pay (l.conclude g.paid r) g.owed
  refine ⟨owed, l.conclude g.paid r, ?_, hleads, hshown.paid, rfl, rfl⟩
  rw [← howed]
  exact .step hstep hpaid

/-- The handler of a call has ended, and the outermost pass ends with it. -/
theorem Running.endWith_lives {r : Except ServiceError α} (hs : s.Shown l.stance)
    (hfree : l.stance.owed = []) (hmay : ∀ millis, l.Step none (l.finish millis r)) :
    l.Lives w s (endWith r s w) := by
  obtain ⟨millis, howes⟩ := CallState.finish_owes hs w (failureOf r)
  exact Life.lives_conclude hfree (hmay millis) howes

theorem Life.Lives.of_runs {deeds : List Deed} (h : l.Runs deeds l') (hleads : Leads w s deeds w' s')
    (hx : l'.Lives w' s' x) : l.Lives w s x := by
  obtain ⟨deeds', l'', hruns, hleads', hshown⟩ := hx
  exact ⟨deeds ++ deeds', l'', h.trans hruns, hleads.trans hleads', hshown⟩

/-- A call is cut off.  Between the end of the inner passes and that of the outermost it may be seen to
that the call counts as cancelled. -/
theorem Running.cut_lives {stage : Stage ο σ α} (hs : s.Shown l.stance) (hfree : l.stance.owed = [])
    (hspot : l.spot = .going stage)
    (hquiet : ∀ g, (s.abandonInner w).2.Shown g →
      Owes (s.abandonInner w).1 (s.abandonInner w).2 g w' s' g) :
    l.Lives w s (endWith (.error .cancelled) s' w') := by
  -- whatever for the call is cut off, it is cancelled by that
  refine .of_runs (.of_drifts l l.stance.drifts_cancel) .refl ?_
  have hs' : s.Shown { l.stance with cancelled := true } := ⟨hs.depth, hs.outbound, hs.drained⟩
  obtain ⟨times, htimes, hinner⟩ := CallState.abandonTo_owes hs' 1 s.passes.length w
  have hbetween := hquiet _ hinner.1
  obtain ⟨millis, houter⟩ := CallState.finish_owes hbetween.1 w' (some .cancelled)
  refine Life.lives_conclude hfree ?_ (hinner.trans (hbetween.trans houter))
  refine .cut (l := { l with stance := { l.stance with cancelled := true } }) hfree hspot rfl times
    ?_ millis
  rw [htimes]
  show _ = l.stance.depth - 1
  rw [hs.depth]
  omega

/-- A call that is looked at does nothing but steps. -/
theorem Running.poll_lives {c : Running ι ο σ α} (hc : c.Shown l) (hspot : l.spot = .going c.stage) :
    l.Lives w c.state (c.poll w) := by
  unfold Running.poll
  split
  · exact cut_lives hc.stance hc.free hspot fun g hg => ⟨hg, [], (List.append_nil _).symm, .refl⟩
  · split
    · -- that the time is over is noted
      refine cut_lives hc.stance hc.free hspot fun g hg =>
        ⟨⟨hg.depth, hg.outbound, hg.drained⟩, [], (List.append_nil _).symm, ?_⟩
      have hquiet : [Telemetry.Note.deadlineExceeded].filter Telemetry.Note.isOfPass = [] := rfl
      have hnote := Leads.write hquiet (c.state.abandonInner w).2 (c.state.abandonInner w).1
      exact ⟨rfl, hnote.metrics, hnote.passNotes, hnote.table⟩
    · obtain ⟨deeds, l', hruns, hleads, hshown⟩ := work_works (w := w) hc hspot
      rcases hx : c.work w with ⟨poll, w'⟩
      rw [hx] at hleads hshown
      cases poll with
      | waiting c' => exact ⟨deeds, l', hruns, hleads, hshown⟩
      | ended r s' =>
        obtain ⟨hs', hfree', hmay⟩ := hshown
        exact .of_runs hruns hleads (endWith_lives hs' hfree' hmay)

end

end UserDirectory.Call
