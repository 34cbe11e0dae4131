import UserDirectory.Proofs.Call.Turns
import UserDirectory.Proofs.Service.Nesting
import UserDirectory.Proofs.Telemetry.Metrics
/-!
# Calls that are cut short

Whenever a call is looked at, its cancellation comes first, then the end of its time, and the handler
last.  Anything can happen between two looks: the caller reads, leaves or cancels, the server is shut
down, time goes by, and other calls are made.

Main statements:
  * `Running.poll_sheds`: what is left to do for a call that is cut short;
  * `Exchange.look_cutShort`: the handler and the stream of requests make no difference to it;
  * `Exchange.Moves.watched`: the turns of calls and their callers are among what can happen;
  * `Exchange.Over.event`, `Exchange.Watched.over`: once a call is to be cut short, it stays so;
  * `Exchange.cancellation_wins`: every look at every call, and all that comes after.
-/

namespace UserDirectory.Call

open UserDirectory.Service (ServiceError)
open UserDirectory.Telemetry (Metrics Note)

variable {ι ο σ α : Type}

/-! ## §1. Passes that end as errors. -/

/-- Some passes of a call, the innermost first, have ended as errors, and the store has not been
touched. -/
structure CallState.Sheds (n : Nat) (w : World) (s : CallState ο) (w' : World) (s' : CallState ο) :
    Prop where
  passes : s'.passes = s.passes.drop n
  failed : Metrics.Failed n s.context.method w.metrics w'.metrics
  backend : w'.backend = w.backend
  context : s'.context = s.context
  cancelled : s.cancelled = true → s'.cancelled = true

namespace CallState

section

variable {n k : Nat} {w w' w'' : World} {s s' s'' : CallState ο}

theorem Sheds.refl : Sheds 0 w s w s := ⟨rfl, .refl, rfl, rfl, id⟩

theorem Sheds.trans (h : Sheds n w s w' s') (h' : Sheds k w' s' w'' s'') :
    Sheds (n + k) w s w'' s'' where
  passes := by rw [h'.passes, h.passes, List.drop_drop]
  failed := by
    have hmore := h'.failed
    rw [h.context] at hmore
    exact h.failed.trans hmore
  backend := h'.backend.trans h.backend
  context := h'.context.trans h.context
  cancelled hs := h'.cancelled (h.cancelled hs)

/-- The innermost pass ends as an error. -/
theorem close_sheds (s : CallState ο) (w : World) (note : Nat → Note) :
    Sheds (min 1 s.passes.length) w s (s.close w true note).1 (s.close w true note).2 := by
  cases hpasses : s.passes with
  | nil =>
    rw [close_of_nil hpasses]
    exact .refl
  | cons began outer =>
    rw [close_of_cons hpasses]
    have hone : min 1 (began :: outer).length = 1 := by
      rw [List.length_cons]
      omega
    rw [hone]
    exact ⟨by rw [hpasses]; rfl, .of_failedOnce (Metrics.failedOnce_record _ _ _), rfl, rfl, id⟩

/-- The innermost passes are given up one after another. -/
theorem abandonTo_sheds (left n : Nat) (s : CallState ο) (w : World) :
    Sheds (min n (s.passes.length - left)) w s (s.abandonTo left n w).1 (s.abandonTo left n w).2 := by
  induction n generalizing s w with
  | zero =>
    rw [Nat.zero_min]
    exact .refl
  | succ n ih =>
    unfold abandonTo
    split
    · -- as many as there may be left
      rename_i hfew
      rw [Nat.sub_eq_zero_of_le hfew, Nat.min_zero]
      exact .refl
    · rename_i hmany
      have hfirst := close_sheds s w .callAbandoned
      have hmore := ih (s.abandon w).2 (s.abandon w).1
      have hlength : (s.abandon w).2.passes.length = s.passes.length - min 1 s.passes.length := by
        rw [← List.length_drop, ← hfirst.passes]
        rfl
      have hsum : min (n + 1) (s.passes.length - left)
          = min 1 s.passes.length + min n ((s.abandon w).2.passes.length - left) := by
        rw [hlength]
        omega
      rw [hsum]
      exact hfirst.trans hmore

end

end CallState

/-! ## §2. One look. -/

/-- The result and the state of a call that is cut short: it has been cancelled, or its time is over and
so it is cancelled; every pass has ended as an error. -/
theorem Running.poll_sheds {s : CallState ο} {w : World}
    (hcut : s.isCancelled w = true ∨ s.isOverdue w = true) :
    ∃ s' w', CallState.Sheds s.passes.length w s w' s'
      ∧ (s.isCancelled w = false → s'.cancelled = true)
      ∧ ∀ (h : Handler ι ο σ α) (stage : Stage ο σ α) (inbound : Inbound ι),
        Running.poll ⟨h, stage, inbound, s⟩ w = (.ended (.error .cancelled) s', w') := by
  -- first the inner passes, then the outermost
  have hinner := CallState.abandonTo_sheds 1 s.passes.length s w
  have hcount : ∀ s₁ : CallState ο, s₁.passes = (s.abandonInner w).2.passes →
      min s.passes.length (s.passes.length - 1) + 0 + min 1 s₁.passes.length = s.passes.length := by
    intro s₁ hs₁
    rw [hs₁, CallState.abandonInner, hinner.passes, List.length_drop]
    omega
  by_cases hcancelled : s.isCancelled w = true
  · have hlast := CallState.close_sheds (s.abandonInner w).2 (s.abandonInner w).1
      (CallState.endNote · (some .cancelled))
    refine ⟨_, _, hcount _ rfl ▸ (hinner.trans .refl).trans hlast, ?_, fun h stage inbound => ?_⟩
    · intro hlive
      rw [hcancelled] at hlive
      cases hlive
    · exact poll_of_isCancelled _ w hcancelled
  · rw [Bool.not_eq_true] at hcancelled
    have hlate : s.isOverdue w = true :=
      hcut.resolve_left (by rw [hcancelled]; exact Bool.false_ne_true)
    let s₁ : CallState ο := { (s.abandonInner w).2 with cancelled := true }
    let w₁ : World := (s.abandonInner w).2.write (s.abandonInner w).1 [.deadlineExceeded]
    have hmark : CallState.Sheds 0 (s.abandonInner w).1 (s.abandonInner w).2 w₁ s₁ :=
      ⟨rfl, .refl, rfl, rfl, fun _ => rfl⟩
    have hlast := CallState.close_sheds s₁ w₁ (CallState.endNote · (some .cancelled))
    refine ⟨_, _, hcount s₁ rfl ▸ (hinner.trans hmark).trans hlast, fun _ => hlast.cancelled rfl,
      fun h stage inbound => ?_⟩
    exact poll_of_isOverdue _ w hcancelled hlate

namespace Exchange

/-- What there is to tell of a call that ends. -/
theorem conclude_ends (e : Exchange ι ο σ α) (r : Except ServiceError α) (s : CallState ο)
    (w : World) :
    (e.conclude r s w).1.report.result = some r ∧ (e.conclude r s w).1.entered = e.entered
      ∧ (e.conclude r s w).1.state.cancelled = s.cancelled
      ∧ (e.conclude r s w).2.backend = w.backend ∧ (e.conclude r s w).2.metrics = w.metrics := by
  unfold conclude
  split
  · -- the failure is sent to the caller, or nobody is there
    rename_i cause _
    unfold deliver
    by_cases hgone : s.outbound.makeRoom.readerGone = true
    · rw [if_pos hgone]
      exact ⟨rfl, rfl, rfl, rfl, rfl⟩
    · rw [if_neg hgone]
      exact ⟨rfl, rfl, rfl, rfl, rfl⟩
  · exact ⟨rfl, rfl, rfl, rfl, rfl⟩

/-- A call has been cut short at a look: it ends as cancelled, it asks nothing of the store, each of its
passes is counted once as an error, and neither what its handler would do next nor what waits in the
stream of requests has any part in it. -/
structure CutShort (e : Exchange ι ο σ α) (c : Running ι ο σ α) (w : World)
    (x : Exchange ι ο σ α × World) : Prop where
  result : x.1.report.result = some (.error .cancelled)
  entered : x.1.entered = e.entered
  backend : x.2.backend = w.backend
  failed : Metrics.Failed c.state.passes.length c.state.context.method w.metrics x.2.metrics
  heedless : ∀ (h : Handler ι ο σ α) (stage : Stage ο σ α) (inbound : Inbound ι),
    work { e with phase := .running ⟨h, stage, inbound, c.state⟩ } w = x

/-- A call that has been cancelled, or whose time is over, is cut short when it is looked at. -/
theorem look_cutShort {e : Exchange ι ο σ α} {c : Running ι ο σ α} {w : World}
    (hchained : e.manner ≠ .bare) (hcut : c.state.isCancelled w = true ∨ c.state.isOverdue w = true) :
    e.CutShort c w (e.look c w)
      ∧ (c.state.isCancelled w = false → (e.look c w).1.state.cancelled = true) := by
  obtain ⟨s, w', hsheds, hcancels, hpoll⟩ := Running.poll_sheds (ι := ι) (σ := σ) (α := α) hcut
  have hidle : e.letsWork c.state w = false := by
    unfold letsWork
    rw [decide_eq_false hchained, Bool.false_or]
    rcases hcut with h | h <;> simp [h]
  -- whatever the handler and the requests are
  have hlook : ∀ (h : Handler ι ο σ α) (stage : Stage ο σ α) (inbound : Inbound ι),
      e.look ⟨h, stage, inbound, c.state⟩ w = e.conclude (.error .cancelled) s w' := by
    intro h stage inbound
    unfold look
    simp only [if_neg hchained, hpoll, hidle, Bool.or_false]
  have hthis := hlook c.handler c.stage c.inbound
  obtain ⟨hresult, hentered, hstate, hbackend, hmetrics⟩ := e.conclude_ends (.error .cancelled) s w'
  rw [hthis]
  refine ⟨⟨hresult, hentered, hbackend.trans hsheds.backend, ?_, fun h stage inbound => ?_⟩,
    fun hlive => ?_⟩
  · rw [hmetrics]
    exact hsheds.failed
  · exact (hlook h stage inbound) ▸ rfl
  · rw [hstate]
    exact hcancels hlive

/-- The call whose handler is the next to be let work, if the call is not over and the chain lets it
through, and the world as it is then. -/
def polled (e : Exchange ι ο σ α) (w : World) : Option (Running ι ο σ α × World) :=
  match e.phase with
  | .ended .. => none
  | .running c => some (c, w)
  | .fresh c =>
    match c.enter w with
    | (none, c, w) => some (c, w)
    | (some _, _, _) => none

/-- A call that has been let through is looked at. -/
theorem work_of_polled {e : Exchange ι ο σ α} {c : Running ι ο σ α} {w w₁ : World}
    (hchained : e.manner ≠ .bare) (h : e.polled w = some (c, w₁)) : e.work w = e.look c w₁ := by
  unfold polled at h
  unfold work
  cases hphase : e.phase with
  | ended r s =>
    rw [hphase] at h
    cases h
  | running c' =>
    rw [hphase] at h
    cases h
    rfl
  | fresh c' =>
    rw [hphase] at h
    simp only [if_neg hchained]
    rcases hx : c'.enter w with ⟨_ | cause, c'', w'⟩
    · simp only [hx] at h
      cases h
      rfl
    · simp only [hx] at h
      cases h

/-- What comes of a look at a call that has been let through: cancellation comes first, then the end of
its time, and then its handler. -/
structure Polled (e : Exchange ι ο σ α) (c : Running ι ο σ α) (w : World)
    (x : Exchange ι ο σ α × World) : Prop where
  cancelled : c.state.isCancelled w = true → e.CutShort c w x
  overdue : c.state.isCancelled w = false → c.state.isOverdue w = true →
    e.CutShort c w x ∧ x.1.state.cancelled = true
  ended : c.state.isCancelled w = false → c.state.isOverdue w = false →
    ∀ r s w', c.work w = (.ended r s, w') → x.1.report.result = some r ∧ x.1.entered = true
  waiting : c.state.isCancelled w = false → c.state.isOverdue w = false →
    ∀ c' w', c.work w = (.waiting c', w') →
      x = ({ e with entered := true, phase := .running c' }, w')

/-- Whenever a call that has been let through is looked at, it ends, or goes on, as it should. -/
theorem polled_work {e : Exchange ι ο σ α} {c : Running ι ο σ α} {w w₁ : World}
    (hchained : e.manner ≠ .bare) (h : e.polled w = some (c, w₁)) : e.Polled c w₁ (e.work w) := by
  rw [work_of_polled hchained h]
  have hlets : c.state.isCancelled w₁ = false → c.state.isOverdue w₁ = false →
      e.letsWork c.state w₁ = true := by
    intro hlive hearly
    simp [letsWork, hlive, hearly]
  refine ⟨fun hcut => ?_, fun hlive hlate => ?_, fun hlive hearly r s w' hwork => ?_,
    fun hlive hearly c' w' hwork => ?_⟩
  · exact (look_cutShort hchained (.inl hcut)).1
  · obtain ⟨hshort, hcancels⟩ := look_cutShort hchained (.inr hlate)
    exact ⟨hshort, hcancels hlive⟩
  · -- the handler has come to its end, and so has its pass
    have hpoll : c.poll w₁ = Running.endWith r s w' := by
      unfold Running.poll
      rw [hlive, hearly, hwork]
      rfl
    unfold look
    simp only [if_neg hchained, hpoll, hlets hlive hearly, Bool.or_true]
    obtain ⟨hresult, hentered, _⟩ := conclude_ends { e with entered := true } r
      (s.finish w' (Running.failureOf r)).2 (s.finish w' (Running.failureOf r)).1
    exact ⟨hresult, hentered⟩
  · -- it waits for something
    have hpoll : c.poll w₁ = (.waiting c', w') := by
      unfold Running.poll
      rw [hlive, hearly, hwork]
      rfl
    unfold look
    simp only [if_neg hchained, hpoll, hlets hlive hearly, Bool.or_true]

end Exchange

/-! ## §3. Between two looks. -/

/-- Time has gone by and others have done anything, but a server that has been shut down stays so. -/
structure World.Later (w w' : World) : Prop where
  clock : w.clock ≤ w'.clock
  shutdown : w.shutdown = true → w'.shutdown = true

namespace CallState

variable {s s' : CallState ο} {w w' : World}

/-- A call has been cancelled itself, or the server it is tied to has been shut down, or its time is
over. -/
def IsCut (s : CallState ο) (w : World) : Prop :=
  s.cancelled = true ∨ (s.tie = .shutdown ∧ w.shutdown = true) ∨ s.isOverdue w = true

theorem IsCut.due (h : s.IsCut w) : s.isCancelled w = true ∨ s.isOverdue w = true := by
  rcases h with hself | ⟨htie, hdown⟩ | hlate
  · left
    rw [isCancelled, hself, Bool.true_or]
  · left
    rw [isCancelled, htie]
    show (s.cancelled || w.shutdown) = true
    rw [hdown, Bool.or_true]
  · exact .inr hlate

/-- Whatever cuts a call short does so for ever. -/
theorem IsCut.later (h : s.IsCut w) (hlater : w.Later w') (htie : s'.tie = s.tie)
    (hdeadline : s'.deadline = s.deadline) (hcancelled : s.cancelled = true → s'.cancelled = true) :
    s'.IsCut w' := by
  rcases h with hself | ⟨hserver, hdown⟩ | hlate
  · exact .inl (hcancelled hself)
  · exact .inr (.inl ⟨htie.trans hserver, hlater.shutdown hdown⟩)
  · -- the deadline has passed
    refine .inr (.inr ?_)
    unfold isOverdue at hlate ⊢
    rw [hdeadline]
    obtain ⟨deadline, hsome, hpassed⟩ := Option.any_eq_true _ _ |>.1 hlate
    refine Option.any_eq_true _ _ |>.2 ⟨deadline, hsome, ?_⟩
    have hclock := hlater.clock
    have hthen := of_decide_eq_true hpassed
    exact decide_eq_true (by omega)

end CallState

namespace Exchange

/-- What can happen on the side of the caller. -/
inductive Aside (e : Exchange ι ο σ α) : Exchange ι ο σ α → Prop
  | read : Aside e e.read
  | cancel : Aside e e.cancel
  | leave (how : ReaderEnd) (h : how ≠ .closed) :
      Aside e (e.mapState fun s => { s with outbound := s.outbound.leave how })

theorem Aside.move {e e' : Exchange ι ο σ α} (h : e.Aside e') (w : World) : Move (e, w) (e', w) := by
  cases h with
  | read => exact .read e w
  | cancel => exact .cancel e w
  | leave how hhow => exact .leave e w how hhow

/-- A look at a call: the call and the world before it, and what has come of them. -/
abbrev Glance (ι ο σ α : Type) : Type := (Exchange ι ο σ α × World) × (Exchange ι ο σ α × World)

/-- What can happen to a call in its world, and whether that is a look at the call. -/
inductive Event :
    Exchange ι ο σ α × World → List (Glance ι ο σ α) → Exchange ι ο σ α × World → Prop
  | look (e : Exchange ι ο σ α) (w : World) : Event (e, w) [((e, w), e.work w)] (e.work w)
  | aside {e e' : Exchange ι ο σ α} (w : World) (h : e.Aside e') : Event (e, w) [] (e', w)
  | elsewhere (e : Exchange ι ο σ α) {w w' : World} (h : w.Later w') : Event (e, w) [] (e, w')

/-- Any number of things happen one after another; every look at the call is written down. -/
inductive Watched (x : Exchange ι ο σ α × World) :
    List (Glance ι ο σ α) → Exchange ι ο σ α × World → Prop
  | refl : Watched x [] x
  | step {y z : Exchange ι ο σ α × World} {glances more : List (Glance ι ο σ α)}
      (h : Watched x glances y) (hevent : Event y more z) : Watched x (glances ++ more) z

/-- The turns of a call and of its caller are such events. -/
theorem Moves.watched {x y z : Exchange ι ο σ α × World} {glances : List (Glance ι ο σ α)}
    (h : Watched x glances y) (hmoves : Moves y z) : ∃ glances', Watched x glances' z := by
  induction hmoves generalizing glances with
  | refl => exact ⟨glances, h⟩
  | step hmove _ ih =>
    cases hmove with
    | work e w => exact ih (h.step (.look e w))
    | read e w => exact ih (h.step (.aside w .read))
    | cancel e w => exact ih (h.step (.aside w .cancel))
    | leave e w how hhow => exact ih (h.step (.aside w (.leave how hhow)))

/-- What happens on the side of the caller changes only what the caller has been sent and has read; who
has been cancelled stays so. -/
theorem Aside.exists_mapState {e e' : Exchange ι ο σ α} (h : e.Aside e') :
    ∃ s : CallState ο, e' = e.mapState (fun _ => s) ∧ s.passes = e.state.passes
      ∧ s.tie = e.state.tie ∧ s.deadline = e.state.deadline
      ∧ (e.state.cancelled = true → s.cancelled = true) := by
  -- to change the state of a call is to put another in its place
  have hput : ∀ f : CallState ο → CallState ο, e.mapState f = e.mapState fun _ => f e.state := by
    intro f
    obtain ⟨manner, cancelAt, entered, phase⟩ := e
    cases phase <;> rfl
  have htwice : ∀ f g : CallState ο → CallState ο,
      (e.mapState f).mapState g = e.mapState fun s => g (f s) := by
    intro f g
    obtain ⟨manner, cancelAt, entered, phase⟩ := e
    cases phase <;> rfl
  cases h with
  | cancel => exact ⟨_, hput _, rfl, rfl, rfl, fun _ => rfl⟩
  | leave how hhow => exact ⟨_, hput _, rfl, rfl, rfl, id⟩
  | read =>
    unfold Exchange.read
    simp only
    split
    · unfold Exchange.cancel
      rw [htwice]
      exact ⟨_, hput _, rfl, rfl, rfl, fun _ => rfl⟩
    · exact ⟨_, hput _, rfl, rfl, rfl, id⟩

/-- A caller who has left the server is found out and has the call cancelled. -/
theorem read_cancelled {e : Exchange ι ο σ α} (hserved : e.manner = .served)
    (hgone : e.read.state.outbound.readerGone = true) : e.read.state.cancelled = true := by
  let e' : Exchange ι ο σ α := e.mapState fun s => { s with outbound := s.outbound.read e.hasEnded }
  have hread : e.read
      = if e'.manner = .served ∧ e'.state.outbound.readerGone then e'.cancel else e' := rfl
  by_cases hleft : e'.state.outbound.readerGone = true
  · rw [hread, if_pos ⟨hserved, hleft⟩]
    unfold Exchange.cancel
    rw [state_mapState]
  · -- whoever is there still is there
    rw [hread, if_neg fun h => hleft h.2] at hgone
    exact absurd hgone hleft

/-! ## §4. Being final. -/

/-- What has become of a call since it was to be cut short: either nobody has looked at it yet, and its
handler has not gone on; or the first look has cut it short, and no other has changed anything. -/
inductive Over (e : Exchange ι ο σ α) (c : Running ι ο σ α) :
    List (Glance ι ο σ α) → Exchange ι ο σ α × World → Prop
  | unseen {s : CallState ο} {w : World} (hpasses : s.passes = c.state.passes) (hcut : s.IsCut w) :
      Over e c [] ({ e with phase := .running { c with state := s } }, w)
  | ended {s : CallState ο} {w w' : World} {x : Exchange ι ο σ α × World} {e' : Exchange ι ο σ α}
      {rest : List (Glance ι ο σ α)} (hpasses : s.passes = c.state.passes)
      (hcut : e.CutShort { c with state := s } w x) (hrest : ∀ g ∈ rest, g.2 = g.1)
      (hresult : e'.report.result = some (.error .cancelled)) (hentered : e'.entered = e.entered) :
      Over e c ((({ e with phase := .running { c with state := s } }, w), x) :: rest) (e', w')

/-- Nothing comes of looking at a call that has a result. -/
theorem work_of_result {e : Exchange ι ο σ α} {r : Except ServiceError α} (h : e.report.result = some r)
    (w : World) : e.work w = (e, w) := by
  refine work_of_hasEnded e w ?_
  obtain ⟨manner, cancelAt, entered, phase⟩ := e
  cases phase with
  | ended r s => rfl
  | _ => cases h

/-- What happens on the side of the caller does not change what has come of a call. -/
theorem Aside.report_eq {e e' : Exchange ι ο σ α} (h : e.Aside e') :
    e'.report.result = e.report.result ∧ e'.entered = e.entered := by
  obtain ⟨s, rfl, _⟩ := h.exists_mapState
  obtain ⟨manner, cancelAt, entered, phase⟩ := e
  cases phase <;> exact ⟨rfl, rfl⟩

/-- A call that has a result keeps it, and looks at the call change nothing. -/
theorem Event.result {y z : Exchange ι ο σ α × World} {more : List (Glance ι ο σ α)}
    {r : Except ServiceError α} (hevent : Event y more z) (hresult : y.1.report.result = some r) :
    z.1.report.result = some r ∧ z.1.entered = y.1.entered ∧ ∀ g ∈ more, g.2 = g.1 := by
  cases hevent with
  | look e w =>
    rw [work_of_result hresult]
    exact ⟨hresult, rfl, fun g hg => by rw [List.mem_singleton.1 hg]⟩
  | aside w haside =>
    obtain ⟨hsame, hentered⟩ := haside.report_eq
    exact ⟨hsame.trans hresult, hentered, fun g hg => by cases hg⟩
  | elsewhere e hlater => exact ⟨hresult, rfl, fun g hg => by cases hg⟩

/-- Whatever happens to a call that was to be cut short: it stays so, and the first look at it is the
end. -/
theorem Over.event {e : Exchange ι ο σ α} {c : Running ι ο σ α}
    {glances more : List (Glance ι ο σ α)} {y z : Exchange ι ο σ α × World}
    (hchained : e.manner ≠ .bare) (h : e.Over c glances y) (hevent : Event y more z) :
    e.Over c (glances ++ more) z := by
  cases h with
  | @unseen s w hpasses hcut =>
    cases hevent with
    | look =>
      obtain ⟨hshort, _⟩ := look_cutShort
        (e := { e with phase := .running { c with state := s } }) (c := { c with state := s })
        hchained hcut.due
      exact .ended hpasses ⟨hshort.result, hshort.entered, hshort.backend, hshort.failed,
        hshort.heedless⟩ (fun g hg => by cases hg) hshort.result hshort.entered
    | aside w haside =>
      obtain ⟨s', rfl, hpasses', htie, hdeadline, hcancelled⟩ := haside.exists_mapState
      exact .unseen (hpasses'.trans hpasses) (hcut.later ⟨Nat.le_refl _, id⟩ htie hdeadline hcancelled)
    | elsewhere e hlater => exact .unseen hpasses (hcut.later hlater rfl rfl id)
  | @ended s w w' x e' rest hpasses hcut hrest hresult hentered =>
    obtain ⟨hkept, hentered', hmore⟩ := hevent.result hresult
    refine .ended hpasses hcut (fun g hg => ?_) hkept (hentered'.trans hentered)
    exact (List.mem_append.1 hg).elim (hrest g) (hmore g)

/-- Once a call is to be cut short, nothing that happens can change that. -/
theorem Watched.over {e : Exchange ι ο σ α} {c : Running ι ο σ α} {w : World}
    {glances : List (Glance ι ο σ α)} {y : Exchange ι ο σ α × World} (hchained : e.manner ≠ .bare)
    (hphase : e.phase = .running c) (hcut : c.state.IsCut w) (h : Watched (e, w) glances y) :
    e.Over c glances y := by
  induction h with
  | refl =>
    obtain ⟨manner, cancelAt, entered, phase⟩ := e
    cases hphase
    exact .unseen rfl hcut
  | step _ hevent ih => exact ih.event hchained hevent

/-- Once a call has a result, it keeps it, and looks at the call change nothing. -/
theorem Watched.result {e : Exchange ι ο σ α} {r : Except ServiceError α} {w : World}
    {glances : List (Glance ι ο σ α)} {y : Exchange ι ο σ α × World}
    (hresult : e.report.result = some r) (h : Watched (e, w) glances y) :
    y.1.report.result = some r ∧ y.1.entered = e.entered ∧ ∀ g ∈ glances, g.2 = g.1 := by
  induction h with
  | refl => exact ⟨hresult, rfl, fun g hg => by cases hg⟩
  | step _ hevent ih =>
    obtain ⟨hkept, hentered, hglances⟩ := ih
    obtain ⟨hkept', hentered', hmore⟩ := hevent.result hkept
    refine ⟨hkept', hentered'.trans hentered, fun g hg => ?_⟩
    exact (List.mem_append.1 hg).elim (hglances g) (hmore g)

/-! ## §5. From the start of a call. -/

/-- Whatever happens to a call and its caller are steps in the life of the call. -/
theorem Watched.lives {e : Exchange ι ο σ α} {w : World} {glances : List (Glance ι ο σ α)}
    {y : Exchange ι ο σ α × World} (h : Watched (e, w) glances y) {l : Life ι ο σ α}
    (hshown : e.Shown l) : ∃ deeds l', l.Runs deeds l' ∧ y.1.Shown l' := by
  induction h with
  | refl => exact ⟨[], l, .refl, hshown⟩
  | @step y z _ _ _ hevent ih =>
    obtain ⟨deeds, l₁, hruns, hshown₁⟩ := ih
    have hmove : ∀ x, Move y x → ∃ deeds l', l.Runs deeds l' ∧ x.1.Shown l' := by
      intro x hmove
      obtain ⟨more, l', hmore, _, hshown'⟩ := hmove.lives hshown₁
      exact ⟨deeds ++ more, l', hruns.trans hmore, hshown'⟩
    cases hevent with
    | look e' w' => exact hmove _ (.work e' w')
    | aside w' haside => exact hmove _ (haside.move w')
    | elsewhere e' hlater => exact ⟨deeds, l₁, hruns, hshown₁⟩

/-- Whenever a handler is the next to be let work, the passes of its call are those it has itself begun
and not ended, and one around them. -/
theorem Shown.passes_of_polled {e : Exchange ι ο σ α} {l : Life ι ο σ α} {deeds : List Deed}
    (hshown : e.Shown l) (hproper : l.handler.Proper) (hbooked : l.Booked deeds) {w w₁ : World}
    {c : Running ι ο σ α} (hpolled : e.polled w = some (c, w₁)) :
    ∃ k, c.stage.Nested k ∧ c.state.passes.length = k + 1 := by
  unfold polled at hpolled
  have hphase := hshown.phase
  cases hwhere : e.phase with
  | ended r s =>
    rw [hwhere] at hpolled
    cases hpolled
  | running c' =>
    rw [hwhere] at hpolled hphase
    cases hpolled
    obtain ⟨hc, hspot, _⟩ := hphase
    unfold Life.Booked at hbooked
    rw [hspot] at hbooked
    obtain ⟨k, ⟨hdepth, _⟩, hnested⟩ := hbooked
    exact ⟨k, hnested, hc.stance.depth.symm.trans hdepth⟩
  | fresh c' =>
    rw [hwhere] at hpolled hphase
    obtain ⟨hc, hstart, hspot⟩ := hphase
    unfold Life.Booked at hbooked
    rw [hspot] at hbooked
    -- the pass that the chain has begun is the only one
    have henter := CallState.enter_owes hc.stance w
    unfold Running.enter at hpolled
    rcases hx : c'.state.enter w with ⟨refusal, w', s'⟩
    rw [hx] at henter
    simp only [hx] at hpolled
    cases refusal with
    | some cause => cases hpolled
    | none =>
      cases hpolled
      obtain ⟨_, hs', _⟩ | ⟨_, _, hsome, _⟩ := henter
      · refine ⟨0, ?_, hs'.depth.symm.trans ?_⟩
        · show c'.stage.Nested 0
          rw [hstart, ← hc.handler]
          exact hproper.start
        · exact congrArg (· + 1) hbooked.1
      · cases hsome

/-- Cancellation comes first, and it is final.  Take any call through the chain, with any handler, and
anything that has happened since its start.  Whenever it is looked at, it ends as cancelled if it has
been cancelled; if not, but its time is over, it ends as cancelled and is cancelled by that; and if
neither, its handler says what becomes of it.  A call that is to be cut short stays so, and the first
look at it is its end: its handler is not let work any more, nothing is asked of the store, no request is
taken, and every open pass, its own and those that its handler has begun inside of it, is counted once,
as an error.  After that nothing changes.  A caller who leaves the server cancels the call. -/
theorem cancellation_wins {manner : Manner} (hchained : manner ≠ .bare) (handler : Handler ι ο σ α)
    (inbound : Inbound ι) (context : Context) (tie : Tie) (cancelled : Bool) (capacity : Nat)
    (reader : Reader ο) (now : Nat) (cancelAt : Option Nat) {w₀ w : World} {e : Exchange ι ο σ α}
    {glances : List (Glance ι ο σ α)}
    (hruns : Watched (.start manner cancelAt (.start handler inbound
      { CallState.start context tie (.ofCapacity capacity reader) now with cancelled }), w₀)
      glances (e, w)) :
    (∀ c w₁, e.polled w = some (c, w₁) → e.Polled c w₁ (e.work w)
      ∧ (handler.Proper → ∃ k, c.stage.Nested k ∧ c.state.passes.length = k + 1))
    ∧ (∀ c, e.phase = .running c → c.state.IsCut w →
      ∀ more y, Watched (e, w) more y → e.Over c more y)
    ∧ (∀ r, e.report.result = some r → ∀ more y, Watched (e, w) more y →
      y.1.report.result = some r ∧ y.1.entered = e.entered ∧ ∀ g ∈ more, g.2 = g.1)
    ∧ (manner = .served → e.read.state.outbound.readerGone = true →
      e.read.state.cancelled = true) := by
  have hstart := shown_start handler hchained cancelAt inbound context tie cancelled
    (.ofCapacity capacity reader) now fun _ => rfl
  obtain ⟨deeds, l, hlife, hshown⟩ := hruns.lives hstart
  refine ⟨fun c w₁ hpolled => ⟨polled_work hshown.chained hpolled, fun hproper => ?_⟩,
    fun c hphase hcut more y hmore => hmore.over hshown.chained hphase hcut,
    fun r hresult more y hmore => hmore.result hresult, fun hserved hgone => ?_⟩
  · have hkept : l.handler.Proper := by
      rw [hlife.kin.handler]
      exact hproper
    have hfresh : Life.Booked (.start handler (decide (manner = .served)) inbound
        (.ofCapacity capacity reader)) [] := ⟨rfl, rfl⟩
    exact hshown.passes_of_polled hkept (hlife.booked hproper hfresh) hpolled
  · have hmanner : e.manner = .served := by
      have hsame := hshown.served.symm.trans hlife.kin.served
      rw [hserved] at hsame
      exact of_decide_eq_true hsame
    exact read_cancelled hmanner hgone

/-- A handler that asks the store after five milliseconds. -/
def askLater : Handler Unit Unit Unit Unit :=
  .ofAction (Action.ofProgram (.pause 5 (.store .count fun _ => .done ())))

/-- A call of it that may take five milliseconds. -/
def hurried : Exchange Unit Unit Unit Unit :=
  .start .chained none (.start askLater .empty
    { CallState.start ((Context.start "a" .unary none).withTimeout (.ofMillis 5)) .nothing
        (.ofCapacity 1 (.start none)) 0 with cancelled := false })

/-- The time of a call is over at the millisecond at which its handler would be done. -/
theorem cancellation_wins_overdue :
    ∃ (e : Exchange Unit Unit Unit Unit) (c : Running Unit Unit Unit Unit) (w : World),
      e.polled w = some (c, w) ∧ c.state.isCancelled w = false ∧ c.state.isOverdue w = true
      ∧ (∃ s w', c.work w = (.ended (.ok ()) s, w')) ∧ e.CutShort c w (e.work w)
      ∧ (e.work w).1.state.cancelled = true ∧ (e.work w).2.metrics.totalErrors = 1
      ∧ (∃ k, c.stage.Nested k ∧ c.state.passes.length = k + 1)
      ∧ ∀ more y, Watched (e, w) more y → e.Over c more y := by
  let waiting := hurried.work (.start .epoch none .empty)
  have hlater : waiting.2.Later { waiting.2 with clock := 5 } := ⟨by decide, id⟩
  have hruns := ((Watched.refl (x := (hurried, World.start .epoch none .empty))).step
    (.look _ _)).step (.elsewhere waiting.1 hlater)
  have hproper : askLater.Proper := Handler.proper_ofAction fun _ => rfl
  have hchained : Manner.chained ≠ .bare := nofun
  obtain ⟨hlook, hfinal, _⟩ := cancellation_wins hchained askLater .empty
    ((Context.start "a" .unary none).withTimeout (.ofMillis 5)) .nothing false 1 (.start none) 0 none
    hruns
  obtain ⟨hpolled, hpasses⟩ := hlook _ _ rfl
  have hlate : waiting.1.state.isOverdue { waiting.2 with clock := 5 } = true := by decide +kernel
  obtain ⟨hshort, hcancels⟩ := hpolled.overdue rfl hlate
  exact ⟨_, _, _, rfl, rfl, hlate, ⟨_, _, rfl⟩, hshort, hcancels, by decide +kernel, hpasses hproper,
    hfinal _ rfl (.inr (.inr hlate))⟩

end Exchange

end UserDirectory.Call
