import UserDirectory.Call.Exchange
/-!
# Calls in worlds that are like each other

Two worlds may differ in the log and in the metrics, where no call ever looks, and their stores may give
different errors for one operation.  A program that goes on alike after two such errors does the same
in both worlds, apart from what it notes; and so does a call, whenever it is looked at.

Main statements:
  * `Program.Like.bind`: programs that are alike may be put together from parts that are;
  * `advance_like`: they do the same in worlds that are like each other;
  * `Exchange.settle_like`, `Exchange.giveUp_like`: and so do calls.
-/

namespace UserDirectory.Call

open UserDirectory.Service (ServiceError)
open UserDirectory.Store (Engine Fault Operation StoreError)
open UserDirectory.Telemetry (Note Span)

/-! ## §1. What may differ. -/

/-- Two outcomes are the same, or two errors of which nobody need know which it was. -/
inductive SameOutcome {α : Type} (R : StoreError → StoreError → Prop) :
    Except StoreError α → Except StoreError α → Prop
  | ok (a : α) : SameOutcome R (.ok a) (.ok a)
  | error {e e' : StoreError} (h : R e e') : SameOutcome R (.error e) (.error e')

theorem SameOutcome.refl {α : Type} {R : StoreError → StoreError → Prop} (hR : ∀ e, R e e)
    (r : Except StoreError α) : SameOutcome R r r := by
  cases r with
  | ok a => exact .ok a
  | error e => exact .error (hR e)

/-- Which stores are like each other, and which of their errors. -/
structure Likeness where
  engines : Engine → Engine → Prop
  errors : StoreError → StoreError → Prop
  /-- what has been planned to fail fails the same in both -/
  errors_refl (e : StoreError) : errors e e
  /-- stores that are like each other give like outcomes, and stay so -/
  perform {x y : Engine} (h : engines x y) (now : Time.Instant) (op : Operation) :
    SameOutcome errors (x.perform now op).1 (y.perform now op).1
      ∧ engines (x.perform now op).2.1 (y.perform now op).2.1

/-- Two outcomes that are alike. -/
def Likeness.Outcomes (l : Likeness) {α : Type} :
    Except StoreError α → Except StoreError α → Prop :=
  SameOutcome l.errors

/-- Two worlds with a gate that differ in the log, the metrics and in stores that are alike. -/
def World.Like (l : Likeness) (g : Option Gate) (w w' : World) : Prop :=
  w.gate = g ∧ ∃ log metrics engine, l.engines w.backend.engine engine
    ∧ w' = { w with log, metrics, backend := { w.backend with engine } }

/-- Two turns give alike and leave worlds that are like each other. -/
def LikeTurn {α α' β : Type} (l : Likeness) (g : Option Gate) (R : α → α' → Prop)
    (x : α × World × β) (y : α' × World × β) : Prop :=
  ∃ a a' w w' b, x = (a, w, b) ∧ y = (a', w', b) ∧ R a a' ∧ World.Like l g w w'

/-- Two ends are alike and leave worlds that are like each other. -/
def LikeEnd {α α' : Type} (l : Likeness) (g : Option Gate) (R : α → α' → Prop)
    (x : α × World) (y : α' × World) : Prop :=
  ∃ a a' w w', x = (a, w) ∧ y = (a', w') ∧ R a a' ∧ World.Like l g w w'

/-- Two passes leave worlds that are like each other and the same call. -/
def LikePass {β : Type} (l : Likeness) (g : Option Gate) (x y : World × β) : Prop :=
  ∃ w w' b, x = (w, b) ∧ y = (w', b) ∧ World.Like l g w w'

section

variable {l : Likeness} {g : Option Gate} {w w' : World}

theorem World.Like.clock (h : World.Like l g w w') : w'.clock = w.clock := by
  obtain ⟨_, _, _, _, _, rfl⟩ := h
  rfl

/-- Lines in a log make no difference, on either side. -/
theorem World.Like.write (h : World.Like l g w w') (spans spans' : List Span)
    (notes notes' : List Note) : World.Like l g (w.write spans notes) (w'.write spans' notes') := by
  obtain ⟨hg, _, _, _, hengine, rfl⟩ := h
  exact ⟨hg, _, _, _, hengine, rfl⟩

/-! ## §2. The store and the clock. -/

theorem World.readWall_like (h : World.Like l g w w') :
    LikeEnd l g Eq w.readWall w'.readWall := by
  obtain ⟨hg, _, _, _, hengine, rfl⟩ := h
  exact ⟨_, _, _, _, rfl, rfl, rfl, hg, _, _, _, hengine, rfl⟩

theorem World.wait_like (h : World.Like l g w w') (hold : Hold) (ms : Nat) :
    w'.wait hold ms = w.wait hold ms := by
  obtain ⟨_, _, _, _, _, rfl⟩ := h
  rfl

theorem World.perform_like (h : World.Like l g w w') (spans : List Span) (op : Operation) :
    LikeEnd l g l.Outcomes (w.perform spans op) (w'.perform spans op) := by
  obtain ⟨hg, _, _, _, hengine, rfl⟩ := h
  obtain ⟨houtcome, hleft⟩ := l.perform hengine w.wall op
  exact ⟨_, _, _, _, rfl, rfl, houtcome, hg, _, _, _, hleft, rfl⟩

theorem World.undergo_like (h : World.Like l g w w') (spans : List Span) (op : Operation)
    (fault : Fault) :
    LikeEnd l g l.Outcomes (w.undergo spans op fault) (w'.undergo spans op fault) := by
  have hcancel : World.Like l g (if fault.cancels then { w with directCancelled := true } else w)
      (if fault.cancels then { w' with directCancelled := true } else w') := by
    obtain ⟨hg, _, _, _, hengine, rfl⟩ := h
    split
    · exact ⟨hg, _, _, _, hengine, rfl⟩
    · exact ⟨hg, _, _, _, hengine, rfl⟩
  unfold undergo
  cases fault.error with
  | none => exact perform_like hcancel spans op
  | some e => exact ⟨_, _, _, _, rfl, rfl, SameOutcome.refl l.errors_refl _, hcancel⟩

theorem World.askOnce_like (h : World.Like l g w w') (hold : Hold) (op : Operation) :
    LikeTurn l g Eq (w.askOnce hold op) (w'.askOnce hold op) := by
  unfold askOnce
  cases hold.fault with
  | some fault => exact ⟨_, _, _, _, _, rfl, rfl, rfl, h⟩
  | none =>
    obtain ⟨hg, _, _, _, hengine, rfl⟩ := h
    exact ⟨_, _, _, _, _, rfl, rfl, rfl, hg, _, _, _, hengine, rfl⟩

/-- Two waits for an outcome have come equally far. -/
inductive SameWait (l : Likeness) {α : Type} :
    Option (Except StoreError α) → Option (Except StoreError α) → Prop
  | waiting : SameWait l none none
  | ended {r r' : Except StoreError α} (h : l.Outcomes r r') : SameWait l (some r) (some r')

theorem World.attempt_like (h : World.Like l g w w') (spans : List Span) (hold : Hold)
    (op : Operation) :
    LikeTurn l g (SameWait l) (w.attempt spans hold op) (w'.attempt spans hold op) := by
  obtain ⟨fault, _, w₁, w₁', hold₁, hx, hy, rfl, h₁⟩ := World.askOnce_like h hold op
  unfold attempt
  rw [hx, hy]
  simp only [World.wait_like h₁]
  split
  · obtain ⟨r, r', w₂, w₂', hx₂, hy₂, hr, h₂⟩ := World.undergo_like h₁ spans op fault
    rw [hx₂, hy₂]
    exact ⟨_, _, _, _, _, rfl, rfl, .ended hr, h₂⟩
  · exact ⟨_, _, _, _, _, rfl, rfl, .waiting, h₁⟩

end

/-! ## §3. The chain. -/

namespace CallState

variable {l : Likeness} {g : Option Gate} {w w' : World} {ο : Type}

theorem isCancelled_like (h : World.Like l g w w') (s : CallState ο) :
    s.isCancelled w' = s.isCancelled w := by
  obtain ⟨_, _, _, _, _, rfl⟩ := h
  rfl

theorem isOverdue_like (h : World.Like l g w w') (s : CallState ο) :
    s.isOverdue w' = s.isOverdue w := by
  obtain ⟨_, _, _, _, _, rfl⟩ := h
  rfl

theorem begin_like (h : World.Like l g w w') (s : CallState ο) :
    LikePass l g (s.begin w) (s.begin w') := by
  obtain ⟨hg, _, _, _, hengine, rfl⟩ := h
  exact ⟨_, _, _, rfl, rfl, hg, _, _, _, hengine, rfl⟩

theorem close_like (h : World.Like l g w w') (s : CallState ο) (failed : Bool) (note : Nat → Note) :
    LikePass l g (s.close w failed note) (s.close w' failed note) := by
  unfold close
  cases s.passes with
  | nil => exact ⟨_, _, _, rfl, rfl, h⟩
  | cons began outer =>
    obtain ⟨hg, _, _, _, hengine, rfl⟩ := h
    exact ⟨_, _, _, rfl, rfl, hg, _, _, _, hengine, rfl⟩

theorem finish_like (h : World.Like l g w w') (s : CallState ο) (failure : Option ServiceError) :
    LikePass l g (s.finish w failure) (s.finish w' failure) :=
  close_like h s _ _

theorem abandonTo_like (left : Nat) (n : Nat) (h : World.Like l g w w') (s : CallState ο) :
    LikePass l g (abandonTo left n s w) (abandonTo left n s w') := by
  induction n generalizing s w w' with
  | zero => exact ⟨_, _, _, rfl, rfl, h⟩
  | succ n ih =>
    unfold abandonTo
    split
    · exact ⟨_, _, _, rfl, rfl, h⟩
    · obtain ⟨w₁, w₁', s₁, hx, hy, h₁⟩ := close_like h s true .callAbandoned
      unfold abandon
      rw [hx, hy]
      exact ih h₁ s₁

/-- Whether a call is let through depends neither on what is written down nor on the store. -/
theorem letThrough_like (h : World.Like l g w w') (s : CallState ο) :
    LikeTurn l g Eq (s.letThrough w) (s.letThrough w') := by
  have hwrite := fun notes => h.write s.spans s.spans notes notes
  have hsame : w'.gate = w.gate ∧ w'.second = w.second := by
    obtain ⟨_, _, _, _, _, rfl⟩ := h
    exact ⟨rfl, rfl⟩
  unfold letThrough
  rw [hsame.1, hsame.2]
  cases w.gate with
  | none => exact ⟨_, _, _, _, _, rfl, rfl, rfl, h⟩
  | some gate =>
    simp only
    cases gate.authority.authenticate s.context.metadata w.second with
    | error e => exact ⟨_, _, _, _, _, rfl, rfl, rfl, hwrite _⟩
    | ok claims =>
      simp only
      cases (s.decide gate.policy claims).2 with
      | error e => exact ⟨_, _, _, _, _, rfl, rfl, rfl, hwrite _⟩
      | ok _ =>
        simp only
        split
        · exact ⟨_, _, _, _, _, rfl, rfl, rfl, hwrite _⟩
        · exact ⟨_, _, _, _, _, rfl, rfl, rfl, hwrite _⟩

theorem enter_like (h : World.Like l g w w') (s : CallState ο) :
    LikeTurn l g Eq (s.enter w) (s.enter w') := by
  obtain ⟨w₁, w₁', s₁, hx, hy, h₁⟩ := begin_like h s
  obtain ⟨refusal, _, w₂, w₂', s₂, hx₂, hy₂, rfl, h₂⟩ := letThrough_like h₁ s₁
  unfold enter
  rw [hx, hy]
  simp only [hx₂, hy₂]
  cases refusal with
  | none => exact ⟨_, _, _, _, _, rfl, rfl, rfl, h₂⟩
  | some e =>
    obtain ⟨w₃, w₃', s₃, hx₃, hy₃, h₃⟩ := finish_like h₂ s₂ (some e)
    simp only [hx₃, hy₃]
    exact ⟨_, _, _, _, _, rfl, rfl, rfl, h₃⟩

end CallState

/-! ## §4. Programs. -/

/-- Two programs do the same, and go on alike after outcomes that are alike; what they note is not
looked at.  They end with values in a relation. -/
inductive Program.Like (l : Likeness) {ο α β : Type} (R : α → β → Prop) :
    Program ο α → Program ο β → Prop
  | done {a : α} {b : β} (h : R a b) : Like l R (.done a) (.done b)
  | store (op : Operation) {next : op.Outcome → Program ο α} {next' : op.Outcome → Program ο β}
      (h : ∀ r r', l.Outcomes r r' → Like l R (next r) (next' r')) :
      Like l R (.store op next) (.store op next')
  | send (item : ο) {next : Bool → Program ο α} {next' : Bool → Program ο β}
      (h : ∀ b, Like l R (next b) (next' b)) : Like l R (.send item next) (.send item next')
  | live {next : Bool → Program ο α} {next' : Bool → Program ο β}
      (h : ∀ b, Like l R (next b) (next' b)) : Like l R (.live next) (.live next')
  | clock {next : Time.Instant → Program ο α} {next' : Time.Instant → Program ο β}
      (h : ∀ t, Like l R (next t) (next' t)) : Like l R (.clock next) (.clock next')
  | note (n n' : Note) {next : Program ο α} {next' : Program ο β} (h : Like l R next next') :
      Like l R (.note n next) (.note n' next')
  | pause (ms : Nat) {next : Program ο α} {next' : Program ο β} (h : Like l R next next') :
      Like l R (.pause ms next) (.pause ms next')
  | cancel {next : Program ο α} {next' : Program ο β} (h : Like l R next next') :
      Like l R (.cancel next) (.cancel next')
  | claims {next : Option Access.Claims → Program ο α} {next' : Option Access.Claims → Program ο β}
      (h : ∀ c, Like l R (next c) (next' c)) : Like l R (.claims next) (.claims next')
  | enter {next : Option ServiceError → Program ο α} {next' : Option ServiceError → Program ο β}
      (h : ∀ r, Like l R (next r) (next' r)) : Like l R (.enter next) (.enter next')
  | leave (failure : Option ServiceError) {next : Program ο α} {next' : Program ο β}
      (h : Like l R next next') : Like l R (.leave failure next) (.leave failure next')

section

variable {l : Likeness} {g : Option Gate} {w w' : World} {ι ο σ α β γ δ : Type}

/-- Programs that are alike may be put together from parts that are. -/
theorem Program.Like.bind {R : α → β → Prop} {S : γ → δ → Prop} {p : Program ο α}
    {p' : Program ο β} {f : α → Program ο γ} {f' : β → Program ο δ} (hp : Like l R p p')
    (hf : ∀ a b, R a b → Like l S (f a) (f' b)) : Like l S (p.bind f) (p'.bind f') := by
  induction hp with
  | done h => exact hf _ _ h
  | store op _ ih => exact .store op ih
  | send item _ ih => exact .send item ih
  | live _ ih => exact .live ih
  | clock _ ih => exact .clock ih
  | note n n' _ ih => exact .note n n' ih
  | pause ms _ ih => exact .pause ms ih
  | cancel _ ih => exact .cancel ih
  | claims _ ih => exact .claims ih
  | enter _ ih => exact .enter ih
  | leave failure _ ih => exact .leave failure ih

theorem Program.Like.mono {R S : α → β → Prop} {p : Program ο α} {p' : Program ο β}
    (h : Like l R p p') (hRS : ∀ a b, R a b → S a b) : Like l S p p' := by
  have hend : Like l S (p.bind .done) (p'.bind .done) := h.bind fun a b hr => .done (hRS a b hr)
  rwa [bind_done, bind_done] at hend

/-- Where stores that are alike give the same, every program is like itself. -/
theorem Program.Like.self (hl : ∀ e e', l.errors e e' → e = e') (p : Program ο α) :
    Like l Eq p p := by
  induction p with
  | done a => exact .done rfl
  | store op next ih =>
    refine .store op fun r r' h => ?_
    cases h with
    | ok a => exact ih _
    | error h =>
      cases hl _ _ h
      exact ih _
  | send item next ih => exact .send item ih
  | live next ih => exact .live ih
  | clock next ih => exact .clock ih
  | note n next ih => exact .note n n ih
  | pause ms next ih => exact .pause ms ih
  | cancel next ih => exact .cancel ih
  | claims next ih => exact .claims ih
  | enter next ih => exact .enter ih
  | leave failure next ih => exact .leave failure ih

/-- Two programs have come equally far. -/
inductive Progress.Like (l : Likeness) {ο α β : Type} (R : α → β → Prop) :
    Progress ο α → Progress ο β → Prop
  | finished {a : α} {b : β} (h : R a b) : Like l R (.finished a) (.finished b)
  | waiting {p : Program ο α} {p' : Program ο β} (h : Program.Like l R p p') :
      Like l R (.waiting p) (.waiting p')

/-- Programs that are alike do the same in worlds that are like each other. -/
theorem advance_like {R : α → β → Prop} {p : Program ο α} {p' : Program ο β}
    (hp : Program.Like l R p p') (h : World.Like l g w w') (s : CallState ο) :
    LikeTurn l g (Progress.Like l R) (advance p w s) (advance p' w' s) := by
  induction hp generalizing w w' s with
  | done hr => exact ⟨_, _, _, _, _, rfl, rfl, .finished hr, h⟩
  | store op hnext ih =>
    obtain ⟨r, r', w₁, w₁', hold, hx, hy, hr, h₁⟩ := World.attempt_like h s.spans s.hold op
    unfold advance
    rw [hx, hy]
    cases hr with
    | waiting => exact ⟨_, _, _, _, _, rfl, rfl, .waiting (.store op hnext), h₁⟩
    | ended hr => exact ih _ _ hr h₁ _
  | send item hnext ih =>
    unfold advance
    simp only
    split
    · exact ih false h _
    · split
      · exact ih true h _
      · exact ⟨_, _, _, _, _, rfl, rfl, .waiting (.send item hnext), h⟩
  | live _ ih =>
    unfold advance
    rw [CallState.isCancelled_like h]
    exact ih _ h _
  | clock _ ih =>
    obtain ⟨now, _, w₁, w₁', hx, hy, rfl, h₁⟩ := World.readWall_like h
    unfold advance
    rw [hx, hy]
    exact ih now h₁ _
  | note n n' _ ih => exact ih (h.write _ _ _ _) _
  | pause ms hnext ih =>
    unfold advance
    rw [World.wait_like h]
    simp only
    split
    · exact ih h _
    · exact ⟨_, _, _, _, _, rfl, rfl, .waiting (.pause ms hnext), h⟩
  | cancel hnext _ => exact ⟨_, _, _, _, _, rfl, rfl, .waiting hnext, h⟩
  | claims _ ih => exact ih _ h _
  | enter _ ih =>
    obtain ⟨refusal, _, w₁, w₁', s₁, hx, hy, rfl, h₁⟩ := CallState.enter_like h s
    unfold advance
    rw [hx, hy]
    exact ih refusal h₁ s₁
  | leave failure _ ih =>
    obtain ⟨w₁, w₁', s₁, hx, hy, h₁⟩ := CallState.finish_like h s failure
    unfold advance
    rw [hx, hy]
    exact ih h₁ s₁

/-! ## §5. Running calls. -/

/-- Two stages that are alike. -/
inductive Stage.Like (l : Likeness) {ο σ α : Type} : Stage ο σ α → Stage ο σ α → Prop
  | awaiting (kept : σ) : Like l (.awaiting kept) (.awaiting kept)
  | handling {p p' : Program ο (Except ServiceError σ)} (h : Program.Like l Eq p p') :
      Like l (.handling p) (.handling p')
  | closing {p p' : Program ο (Except ServiceError α)} (h : Program.Like l Eq p p') :
      Like l (.closing p) (.closing p')

/-- A handler whose programs go on alike after outcomes that are alike. -/
structure Handler.Heedless (l : Likeness) {ι ο σ α : Type} (h : Handler ι ο σ α) : Prop where
  onItem (kept : σ) (x : ι) : Program.Like l Eq (h.onItem kept x) (h.onItem kept x)
  onEnd (kept : σ) : Program.Like l Eq (h.onEnd kept) (h.onEnd kept)
  start : Stage.Like l h.start h.start

/-- Two calls of a handler that differ in nothing but stages that are alike. -/
structure Running.Like (l : Likeness) {ι ο σ α : Type} (c c' : Running ι ο σ α) : Prop where
  heedless : c.handler.Heedless l
  handler : c'.handler = c.handler
  stage : Stage.Like l c.stage c'.stage
  inbound : c'.inbound = c.inbound
  state : c'.state = c.state

/-- What has come of looking at two calls is alike. -/
inductive Poll.Like (l : Likeness) {ι ο σ α : Type} : Poll ι ο σ α → Poll ι ο σ α → Prop
  | waiting {c c' : Running ι ο σ α} (h : Running.Like l c c') : Like l (.waiting c) (.waiting c')
  | ended (r : Except ServiceError α) (s : CallState ο) : Like l (.ended r s) (.ended r s)

namespace Running

variable {handler : Handler ι ο σ α} {c c' : Running ι ο σ α}

theorem closing_like (hh : handler.Heedless l) (h : World.Like l g w w') (i : Inbound ι)
    {p p' : Program ο (Except ServiceError α)} (hp : Program.Like l Eq p p') (s : CallState ο) :
    LikeEnd l g (Poll.Like l) (closing handler i p w s) (closing handler i p' w' s) := by
  obtain ⟨progress, progress', w₁, w₁', s₁, hx, hy, hprogress, h₁⟩ := advance_like hp h s
  unfold closing
  rw [hx, hy]
  cases hprogress with
  | finished hr =>
    cases hr
    exact ⟨_, _, _, _, rfl, rfl, .ended _ s₁, h₁⟩
  | waiting hp => exact ⟨_, _, _, _, rfl, rfl, .waiting ⟨hh, rfl, .closing hp, rfl, rfl⟩, h₁⟩

theorem serve_like (hh : handler.Heedless l) (arrivals : List (Arrival ι)) (i : Inbound ι)
    (kept : σ) (h : World.Like l g w w') (s : CallState ο) :
    LikeEnd l g (Poll.Like l) (serve handler arrivals i kept w s)
      (serve handler arrivals i kept w' s) := by
  -- on the number of arrivals: whether one is left only matters when a message has been answered
  induction hn : arrivals.length using Nat.strongRecOn generalizing arrivals i kept w w' s with
  | _ n ih =>
    unfold serve
    rw [CallState.isCancelled_like h, h.clock]
    cases i.receive (s.isCancelled w) w.clock with
    | mk reception others =>
      obtain ⟨notes, i'⟩ := others
      have hwrite := h.write s.spans s.spans notes notes
      have hawaiting : ∀ i s, Poll.Like l (.waiting ⟨handler, .awaiting kept, i, s⟩)
          (.waiting ⟨handler, .awaiting kept, i, s⟩) :=
        fun i s => .waiting ⟨hh, rfl, .awaiting kept, rfl, rfl⟩
      cases reception with
      | nothing => exact ⟨_, _, _, _, rfl, rfl, hawaiting i' s, hwrite⟩
      | failed e => exact ⟨_, _, _, _, rfl, rfl, .ended _ s, hwrite⟩
      | ended => exact closing_like hh hwrite i' (hh.onEnd kept) s
      | item x =>
        obtain ⟨progress, progress', w₁, w₁', s₁, hx, hy, hprogress, h₁⟩ :=
          advance_like (hh.onItem kept x) hwrite s
        simp only [CallState.write, hx, hy]
        cases hprogress with
        | waiting hp =>
          exact ⟨_, _, _, _, rfl, rfl, .waiting ⟨hh, rfl, .handling hp, rfl, rfl⟩, h₁⟩
        | @finished r _ hr =>
          cases hr
          cases r with
          | error e => exact ⟨_, _, _, _, rfl, rfl, .ended _ s₁, h₁⟩
          | ok kept' =>
            cases arrivals with
            | nil =>
              exact ⟨_, _, _, _, rfl, rfl, .waiting ⟨hh, rfl, .awaiting kept', rfl, rfl⟩, h₁⟩
            | cons a rest =>
              have hless : rest.length < n := by
                rw [← hn]
                exact Nat.lt_succ_self _
              exact ih rest.length hless rest i' kept' h₁ s₁ rfl

theorem work_like (h : World.Like l g w w') (hc : Running.Like l c c') :
    LikeEnd l g (Poll.Like l) (c.work w) (c'.work w') := by
  obtain ⟨handler, stage, i, s⟩ := c
  obtain ⟨handler', stage', i', s'⟩ := c'
  obtain ⟨hh, rfl, hstage, rfl, rfl⟩ := hc
  unfold work
  cases hstage with
  | awaiting kept => exact serve_like hh _ _ kept h s'
  | closing hp => exact closing_like hh h i' hp s'
  | handling hp =>
    obtain ⟨progress, progress', w₁, w₁', s₁, hx, hy, hprogress, h₁⟩ := advance_like hp h s'
    simp only [hx, hy]
    cases hprogress with
    | waiting hp => exact ⟨_, _, _, _, rfl, rfl, .waiting ⟨hh, rfl, .handling hp, rfl, rfl⟩, h₁⟩
    | @finished r _ hr =>
      cases hr
      cases r with
      | error e => exact ⟨_, _, _, _, rfl, rfl, .ended _ s₁, h₁⟩
      | ok kept => exact serve_like hh _ _ kept h₁ s₁

theorem endWith_like (h : World.Like l g w w') (r : Except ServiceError α) (s : CallState ο) :
    LikeEnd l g (Poll.Like l) (endWith r s w : Poll ι ο σ α × World) (endWith r s w') := by
  obtain ⟨w₁, w₁', s₁, hx, hy, h₁⟩ := CallState.finish_like h s (failureOf r)
  unfold endWith
  rw [hx, hy]
  exact ⟨_, _, _, _, rfl, rfl, .ended r s₁, h₁⟩

theorem endCancelled_like (h : World.Like l g w w') (s : CallState ο) :
    LikeEnd l g (Poll.Like l) (endCancelled s w : Poll ι ο σ α × World) (endCancelled s w') := by
  obtain ⟨w₁, w₁', s₁, hx, hy, h₁⟩ := CallState.abandonTo_like 1 s.passes.length h s
  unfold endCancelled CallState.abandonInner
  rw [hx, hy]
  exact endWith_like h₁ _ s₁

theorem endOverdue_like (h : World.Like l g w w') (s : CallState ο) :
    LikeEnd l g (Poll.Like l) (endOverdue s w : Poll ι ο σ α × World) (endOverdue s w') := by
  obtain ⟨w₁, w₁', s₁, hx, hy, h₁⟩ := CallState.abandonTo_like 1 s.passes.length h s
  unfold endOverdue CallState.abandonInner
  rw [hx, hy]
  exact endWith_like (h₁.write _ _ _ _) _ _

/-- Calls that are alike do the same, whenever they are looked at. -/
theorem poll_like (h : World.Like l g w w') (hc : Running.Like l c c') :
    LikeEnd l g (Poll.Like l) (c.poll w) (c'.poll w') := by
  unfold poll
  rw [hc.state, CallState.isCancelled_like h, CallState.isOverdue_like h]
  split
  · exact endCancelled_like h c.state
  · split
    · exact endOverdue_like h c.state
    · obtain ⟨polled, polled', w₁, w₁', hx, hy, hpolled, h₁⟩ := work_like h hc
      simp only [hx, hy]
      cases hpolled with
      | waiting hc => exact ⟨_, _, _, _, rfl, rfl, .waiting hc, h₁⟩
      | ended r s => exact endWith_like h₁ r s

theorem enter_like (h : World.Like l g w w') (hc : Running.Like l c c') :
    ∃ refusal c₁ c₁' w₁ w₁', c.enter w = (refusal, c₁, w₁) ∧ c'.enter w' = (refusal, c₁', w₁')
      ∧ Running.Like l c₁ c₁' ∧ World.Like l g w₁ w₁' := by
  obtain ⟨refusal, _, w₁, w₁', s₁, hx, hy, rfl, h₁⟩ := CallState.enter_like h c.state
  unfold enter
  rw [hc.state, hx, hy]
  exact ⟨_, _, _, _, _, rfl, rfl, ⟨hc.heedless, hc.handler, hc.stage, hc.inbound, rfl⟩, h₁⟩

end Running

/-! ## §6. Exchanges. -/

/-- Two calls have come equally far. -/
inductive Phase.Like (l : Likeness) {ι ο σ α : Type} : Phase ι ο σ α → Phase ι ο σ α → Prop
  | fresh {c c' : Running ι ο σ α} (h : Running.Like l c c') : Like l (.fresh c) (.fresh c')
  | running {c c' : Running ι ο σ α} (h : Running.Like l c c') : Like l (.running c) (.running c')
  | ended (r : Except ServiceError α) (s : CallState ο) : Like l (.ended r s) (.ended r s)

section

variable {phase phase' : Phase ι ο σ α}

theorem Phase.Like.state (h : Phase.Like l phase phase') : phase'.state = phase.state := by
  cases h with
  | fresh h => exact h.state
  | running h => exact h.state
  | ended r s => rfl

theorem Phase.Like.hasEnded (h : Phase.Like l phase phase') :
    phase'.hasEnded = phase.hasEnded := by
  cases h <;> rfl

theorem Phase.Like.mapState (h : Phase.Like l phase phase') (f : CallState ο → CallState ο) :
    Phase.Like l (phase.mapState f) (phase'.mapState f) := by
  cases h with
  | fresh h =>
    exact .fresh ⟨h.heedless, h.handler, h.stage, h.inbound, congrArg f h.state⟩
  | running h =>
    exact .running ⟨h.heedless, h.handler, h.stage, h.inbound, congrArg f h.state⟩
  | ended r s => exact .ended r (f s)

end

/-- Two calls that are made the same way and have come equally far. -/
structure Exchange.Like (l : Likeness) {ι ο σ α : Type} (e e' : Exchange ι ο σ α) : Prop where
  manner : e'.manner = e.manner
  cancelAt : e'.cancelAt = e.cancelAt
  entered : e'.entered = e.entered
  phase : Phase.Like l e.phase e'.phase

namespace Exchange

variable {e e' : Exchange ι ο σ α} {c c' : Running ι ο σ α}

/-- A call of a handler that goes on alike is like itself at its start. -/
theorem Like.start {h : Handler ι ο σ α} (hh : h.Heedless l) (manner : Manner)
    (cancelAt : Option Nat) (i : Inbound ι) (s : CallState ο) :
    Exchange.Like l (start manner cancelAt (.start h i s)) (start manner cancelAt (.start h i s)) :=
  ⟨rfl, rfl, rfl, .fresh ⟨hh, rfl, hh.start, rfl, rfl⟩⟩

theorem Like.state (he : Exchange.Like l e e') : e'.state = e.state := he.phase.state

theorem Like.hasEnded (he : Exchange.Like l e e') : e'.hasEnded = e.hasEnded := he.phase.hasEnded

theorem Like.mapState (he : Exchange.Like l e e') (f : CallState ο → CallState ο) :
    Exchange.Like l (e.mapState f) (e'.mapState f) :=
  ⟨he.manner, he.cancelAt, he.entered, he.phase.mapState f⟩

theorem Like.cancelWhenDue (he : Exchange.Like l e e') (now : Nat) :
    Exchange.Like l (e.cancelWhenDue now) (e'.cancelWhenDue now) := by
  unfold Exchange.cancelWhenDue
  rw [he.cancelAt]
  split
  · exact he.mapState _
  · exact he

theorem Like.read (he : Exchange.Like l e e') : Exchange.Like l e.read e'.read := by
  have hread := he.mapState fun s => { s with outbound := s.outbound.read e.hasEnded }
  unfold Exchange.read
  simp only
  rw [he.hasEnded, hread.manner, hread.state]
  split
  · exact hread.mapState _
  · exact hread

theorem Like.isStreamed (he : Exchange.Like l e e') : e'.isStreamed = e.isStreamed := by
  unfold Exchange.isStreamed
  rw [he.state]

/-- What is waited for is the same. -/
theorem Like.dues (he : Exchange.Like l e e') : e'.dues = e.dues := by
  have hrequest : e'.requestDue = e.requestDue := by
    obtain ⟨manner, cancelAt, entered, phase⟩ := e
    obtain ⟨manner', cancelAt', entered', phase'⟩ := e'
    obtain ⟨_, _, _, hphase⟩ := he
    cases hphase with
    | fresh h => rfl
    | ended r s => rfl
    | @running c c' h =>
      obtain ⟨handler, stage, i, s⟩ := c
      obtain ⟨handler', stage', i', s'⟩ := c'
      obtain ⟨_, _, hstage, rfl, rfl⟩ := h
      cases hstage <;> rfl
  unfold Exchange.dues
  rw [he.state, hrequest, he.cancelAt]

/-- And so is what has become of the call. -/
theorem Like.report (he : Exchange.Like l e e') : e'.report = e.report := by
  have hstate := he.state
  obtain ⟨manner, cancelAt, entered, phase⟩ := e
  obtain ⟨manner', cancelAt', entered', phase'⟩ := e'
  obtain ⟨_, _, rfl, hphase⟩ := he
  unfold Exchange.report
  rw [hstate]
  cases hphase <;> rfl

theorem deliver_like (h : World.Like l g w w') (s : CallState ο) (cause : ServiceError) :
    LikeEnd l g Eq (deliver s w cause) (deliver s w' cause) := by
  unfold deliver
  simp only
  split
  · exact ⟨_, _, _, _, rfl, rfl, rfl, h.write _ _ _ _⟩
  · exact ⟨_, _, _, _, rfl, rfl, rfl, h⟩

theorem conclude_like (h : World.Like l g w w') (he : Exchange.Like l e e')
    (r : Except ServiceError α) (s : CallState ο) :
    LikeEnd l g (Exchange.Like l) (e.conclude r s w) (e'.conclude r s w') := by
  unfold conclude
  rw [he.manner]
  split
  · rename_i cause _
    obtain ⟨s₁, _, w₁, w₁', hx, hy, rfl, h₁⟩ := deliver_like h s cause
    rw [hx, hy]
    exact ⟨_, _, _, _, rfl, rfl, ⟨rfl, he.cancelAt, he.entered, .ended _ s₁⟩, h₁⟩
  · exact ⟨_, _, _, _, rfl, rfl, ⟨rfl, he.cancelAt, he.entered, .ended _ s⟩, h⟩

theorem letsWork_like (h : World.Like l g w w') (he : Exchange.Like l e e') (s : CallState ο) :
    e'.letsWork s w' = e.letsWork s w := by
  unfold letsWork
  rw [he.manner, CallState.isCancelled_like h, CallState.isOverdue_like h]

theorem look_like (h : World.Like l g w w') (he : Exchange.Like l e e')
    (hc : Running.Like l c c') :
    LikeEnd l g (Exchange.Like l) (e.look c w) (e'.look c' w') := by
  unfold look
  rw [hc.state, letsWork_like h he, he.entered, he.manner]
  have hpolled : LikeEnd l g (Poll.Like l) (if e.manner = .bare then c.work w else c.poll w)
      (if e.manner = .bare then c'.work w' else c'.poll w') := by
    split
    · exact Running.work_like h hc
    · exact Running.poll_like h hc
  obtain ⟨polled, polled', w₁, w₁', hx, hy, hpolled, h₁⟩ := hpolled
  simp only [hx, hy]
  cases hpolled with
  | waiting hc => exact ⟨_, _, _, _, rfl, rfl, ⟨rfl, he.cancelAt, rfl, .running hc⟩, h₁⟩
  | ended r s =>
    refine conclude_like h₁ ?_ r s
    exact ⟨rfl, he.cancelAt, rfl, he.phase⟩

theorem work_like (h : World.Like l g w w') (he : Exchange.Like l e e') :
    LikeEnd l g (Exchange.Like l) (e.work w) (e'.work w') := by
  obtain ⟨manner, cancelAt, entered, phase⟩ := e
  obtain ⟨manner', cancelAt', entered', phase'⟩ := e'
  obtain ⟨rfl, rfl, rfl, hphase⟩ := id he
  unfold work
  cases hphase with
  | ended r s => exact ⟨_, _, _, _, rfl, rfl, he, h⟩
  | running hc => exact look_like h he hc
  | fresh hc =>
    simp only
    split
    · exact look_like h he hc
    · -- the chain comes to the same decision
      obtain ⟨refusal, c₁, c₁', w₁, w₁', hx, hy, hc₁, h₁⟩ := Running.enter_like h hc
      rw [hx, hy]
      cases refusal with
      | none => exact look_like h₁ he hc₁
      | some cause =>
        simp only
        rw [hc₁.state]
        exact conclude_like h₁ he _ _

theorem turn_like (h : World.Like l g w w') (he : Exchange.Like l e e') :
    LikeEnd l g (Exchange.Like l) (e.turn w) (e'.turn w') := by
  obtain ⟨e₁, e₁', w₁, w₁', hx, hy, he₁, h₁⟩ := work_like h he
  unfold turn
  rw [hx, hy]
  exact ⟨_, _, _, _, rfl, rfl, he₁.read, h₁⟩

/-- Calls that are alike do the same at any instant. -/
theorem settle_like (h : World.Like l g w w') (he : Exchange.Like l e e') :
    LikeEnd l g (Exchange.Like l) (e.settle w) (e'.settle w') := by
  unfold settle
  rw [h.clock]
  obtain ⟨e₁, e₁', w₁, w₁', hx, hy, he₁, h₁⟩ := turn_like h (he.cancelWhenDue w.clock)
  rw [hx, hy]
  simp only [he₁.hasEnded, he₁.state, CallState.isCancelled_like h₁]
  split
  · -- a call that has been cancelled meanwhile is looked at once more
    exact turn_like h₁ he₁
  · exact ⟨_, _, _, _, rfl, rfl, he₁, h₁⟩

theorem giveUp_like (h : World.Like l g w w') (he : Exchange.Like l e e') :
    LikeEnd l g (Exchange.Like l) (e.giveUp w) (e'.giveUp w') := by
  have hleft := he.mapState fun s => { s with outbound := s.outbound.leave .abandoned }
  unfold giveUp
  rw [he.hasEnded]
  split
  · exact ⟨_, _, _, _, rfl, rfl, he, h⟩
  · simp only
    rw [hleft.manner, hleft.isStreamed, hleft.state]
    split
    · exact settle_like h (hleft.mapState _)
    · obtain ⟨w₁, w₁', s₁, hx, hy, h₁⟩ := CallState.abandonTo_like 0 _ h
        (e.mapState fun s => { s with outbound := s.outbound.leave .abandoned }).state
      unfold CallState.abandonAll
      rw [hx, hy]
      exact ⟨_, _, _, _, rfl, rfl, hleft.mapState _, h₁⟩

end Exchange

end

end UserDirectory.Call
