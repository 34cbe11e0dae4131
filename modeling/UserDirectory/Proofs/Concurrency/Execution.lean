import UserDirectory.Call.Exchange
import UserDirectory.Proofs.Concurrency.Interleaving
/-!
# Calls that are executed

A call that is looked at goes on as far as it can.  All it does on the way are steps of the call, so
whatever calls do that are executed beside each other, in whatever turns, is one of the runs that calls
have which go on at the same time.

Main statements:
  * `advance_follows`: what a program does that is executed;
  * `Running.poll_follows`, `Exchange.settle_follows`: what a call does whenever it is looked at;
  * `Session.runs`: what any number of calls do.
-/

namespace UserDirectory.Call

open UserDirectory.Service (ServiceError)
open UserDirectory.Store (Fault Operation Table)
open UserDirectory.Telemetry (Note Span)

/-! ## §1. Worlds that hold a table. -/

/-- The store of a world is in memory and holds a table, and no failure is planned for it.  It may be
planned that the store is slow. -/
structure World.Holds (w : World) (t : Table) : Prop where
  engine : w.backend.engine = .memory t
  faults : ∀ f ∈ w.backend.faults, f.error = none

/-- What befalls the operation that is waited for is no failure. -/
def Hold.Harmless (h : Hold) : Prop := ∀ f, h.fault = some f → f.error = none

/-- What goes on leaves the store alone, and whoever waits for it. -/
structure LeavesAlone {ο : Type} (w : World) (s : CallState ο) (w' : World) (s' : CallState ο) :
    Prop where
  backend : w'.backend = w.backend
  hold : s'.hold = s.hold

section

variable {ο : Type} {w w' : World} {s s' s'' : CallState ο} {t : Table} {h : Hold}

theorem World.Holds.of_backend (hw : w.Holds t) (hbackend : w'.backend = w.backend) : w'.Holds t := by
  obtain ⟨hengine, hfaults⟩ := hw
  rw [← hbackend] at hengine hfaults
  exact ⟨hengine, hfaults⟩

theorem LeavesAlone.holds (h : LeavesAlone w s w' s') (hw : w.Holds t) : w'.Holds t :=
  hw.of_backend h.backend

theorem LeavesAlone.harmless (h : LeavesAlone w s w' s') (hs : s.hold.Harmless) :
    s'.hold.Harmless := by
  rw [h.hold]
  exact hs

theorem LeavesAlone.trans {w'' : World} (h : LeavesAlone w s w' s')
    (h' : LeavesAlone w' s' w'' s'') : LeavesAlone w s w'' s'' :=
  ⟨h'.backend.trans h.backend, h'.hold.trans h.hold⟩

/-- No failure is met where none is planned. -/
theorem meet_harmless (operation : String) {faults : List Fault}
    (h : ∀ f ∈ faults, f.error = none) :
    (Fault.meet operation faults).1.error = none
      ∧ ∀ f ∈ (Fault.meet operation faults).2, f.error = none := by
  induction faults with
  | nil => exact ⟨rfl, h⟩
  | cons f more ih =>
    have hf := h f List.mem_cons_self
    have hmore : ∀ f ∈ more, f.error = none := fun f hf => h f (List.mem_cons_of_mem _ hf)
    unfold Fault.meet
    split
    · split
      · -- the plan is used, and but for the count it stays as it is
        refine ⟨hf, fun g hg => ?_⟩
        rcases List.mem_cons.1 hg with rfl | hg
        · exact hf
        · exact hmore g hg
      · -- the plan still lets the operation through
        refine ⟨rfl, fun g hg => ?_⟩
        rcases List.mem_cons.1 hg with rfl | hg
        · exact hf
        · exact hmore g hg
    · -- the plan is for another operation, or used up
      refine ⟨(ih hmore).1, fun g hg => ?_⟩
      rcases List.mem_cons.1 hg with rfl | hg
      · exact hf
      · exact (ih hmore).2 g hg

/-- What befalls an operation that is asked for is no failure. -/
theorem World.Holds.askOnce (hw : w.Holds t) (hh : h.Harmless) (op : Operation) :
    ∃ f w' h', w.askOnce h op = (f, w', h') ∧ f.error = none ∧ w'.Holds t ∧ h'.Harmless
      ∧ w'.wall = w.wall := by
  unfold World.askOnce
  cases hfault : h.fault with
  | some f =>
    -- what befalls the operation has been found when it was first asked for
    exact ⟨f, w, h, rfl, hh f hfault, hw, hh, rfl⟩
  | none =>
    obtain ⟨hmet, hleft⟩ := meet_harmless op.name hw.faults
    refine ⟨_, _, _, rfl, hmet, ⟨hw.engine, hleft⟩, fun f hf => ?_, rfl⟩
    cases hf
    exact hmet

/-- An operation is dated by the clock on the wall, which is read once. -/
theorem World.Holds.perform (hw : w.Holds t) (spans : List Span) (op : Operation) :
    ∃ w', w.perform spans op = ((t.perform w.wall op).1, w')
      ∧ w'.Holds (t.perform w.wall op).2 ∧ w'.wall = w.readWall.2.wall := by
  have hperform : w.backend.engine.perform w.wall op
      = ((t.perform w.wall op).1, .memory (t.perform w.wall op).2, []) := by
    rw [hw.engine]
    rfl
  refine ⟨(w.perform spans op).2, Prod.ext ?_ rfl, ⟨?_, hw.faults⟩, rfl⟩
  · show (w.backend.engine.perform w.wall op).1 = _
    rw [hperform]
  · show (w.backend.engine.perform w.wall op).2.1 = _
    rw [hperform]

/-- An operation that no failure befalls is performed. -/
theorem World.Holds.undergo {f : Fault} (hw : w.Holds t) (hf : f.error = none) (spans : List Span)
    (op : Operation) : ∃ w', w.undergo spans op f = ((t.perform w.wall op).1, w')
      ∧ w'.Holds (t.perform w.wall op).2 ∧ w'.wall = w.readWall.2.wall := by
  unfold World.undergo
  simp only [hf]
  split
  · have hcancelled : World.Holds { w with directCancelled := true } t := hw.of_backend rfl
    exact hcancelled.perform spans op
  · exact hw.perform spans op

/-- An operation that is asked for is performed or has to wait. -/
theorem World.Holds.attempt (hw : w.Holds t) (hh : h.Harmless) (spans : List Span)
    (op : Operation) :
    (∃ w' h', w.attempt spans h op = (some (t.perform w.wall op).1, w', h')
      ∧ w'.Holds (t.perform w.wall op).2 ∧ h'.Harmless ∧ w'.wall = w.readWall.2.wall)
    ∨ ∃ w' h', w.attempt spans h op = (none, w', h') ∧ w'.Holds t ∧ h'.Harmless
      ∧ w'.wall = w.wall := by
  obtain ⟨f, w₁, h₁, hask, hf, hw₁, hh₁, hwall⟩ := hw.askOnce hh op
  obtain ⟨w₂, hundergo, hw₂, hwall₂⟩ := hw₁.undergo hf spans op
  unfold World.attempt World.wait
  simp only [hask]
  unfold World.readWall at hwall₂ ⊢
  rw [hwall] at hundergo hw₂ hwall₂
  by_cases hwake : h₁.wake.getD (w₁.clock + f.delay) ≤ w₁.clock
  · simp only [hwake, if_true, hundergo]
    exact .inl ⟨w₂, _, rfl, hw₂, (fun g hg => by cases hg), hwall₂⟩
  · simp only [hwake, if_false]
    exact .inr ⟨w₁, _, rfl, hw₁, hh₁, hwall⟩

/-! ## §2. The chain. -/

theorem CallState.close_leavesAlone (s : CallState ο) (w : World) (failed : Bool)
    (note : Nat → Note) : LeavesAlone w s (s.close w failed note).1 (s.close w failed note).2 := by
  unfold CallState.close
  split
  · exact ⟨rfl, rfl⟩
  · exact ⟨rfl, rfl⟩

theorem CallState.abandonTo_leavesAlone (left n : Nat) (s : CallState ο) (w : World) :
    LeavesAlone w s (s.abandonTo left n w).1 (s.abandonTo left n w).2 := by
  induction n generalizing s w with
  | zero => exact ⟨rfl, rfl⟩
  | succ n ih =>
    unfold CallState.abandonTo
    split
    · exact ⟨rfl, rfl⟩
    · exact (s.close_leavesAlone w true .callAbandoned).trans (ih _ _)

theorem CallState.letThrough_leavesAlone (s : CallState ο) (w : World) :
    LeavesAlone w s (s.letThrough w).2.1 (s.letThrough w).2.2 := by
  unfold CallState.letThrough
  split
  · exact ⟨rfl, rfl⟩
  · split
    · exact ⟨rfl, rfl⟩
    · simp only
      split
      · exact ⟨rfl, rfl⟩
      · split
        · exact ⟨rfl, rfl⟩
        · exact ⟨rfl, rfl⟩

/-- The chain does not ask the store for anything. -/
theorem CallState.enter_leavesAlone (s : CallState ο) (w : World) :
    LeavesAlone w s (s.enter w).2.1 (s.enter w).2.2 := by
  have hbegin : LeavesAlone w s (s.begin w).1 (s.begin w).2 := ⟨rfl, rfl⟩
  have hthrough := (s.begin w).2.letThrough_leavesAlone (s.begin w).1
  have henter := hbegin.trans hthrough
  unfold CallState.enter
  simp only
  split
  · rename_i h
    rw [h] at henter
    exact henter
  · rename_i h
    rw [h] at henter
    exact henter.trans (CallState.close_leavesAlone _ _ _ _)

namespace Running

variable {ι σ α : Type}

/-- The end of the outermost pass leaves the store alone. -/
theorem endWith_leavesAlone (r : Except ServiceError α) (s : CallState ο) (w : World) :
    ∃ s' w', (endWith r s w : Poll ι ο σ α × World) = (.ended r s', w') ∧ LeavesAlone w s w' s' :=
  ⟨_, _, rfl, s.close_leavesAlone w (failureOf r).isSome (CallState.endNote · (failureOf r))⟩

/-- A call that has been cancelled or whose time is over ends, and nothing is asked of the store. -/
theorem poll_of_cut (c : Running ι ο σ α) (w : World)
    (hcut : (c.state.isCancelled w || c.state.isOverdue w) = true) :
    ∃ s' w', c.poll w = (.ended (.error .cancelled) s', w') ∧ LeavesAlone w c.state w' s' := by
  have hinner := c.state.abandonTo_leavesAlone 1 c.state.passes.length w
  unfold poll
  split
  · -- cancelled
    obtain ⟨s', w', hend, hleaves⟩ := endWith_leavesAlone (ι := ι) (σ := σ) (α := α) (.error .cancelled)
      (c.state.abandonInner w).2 (c.state.abandonInner w).1
    exact ⟨s', w', hend, hinner.trans hleaves⟩
  · -- overdue, which is noted
    rename_i hlive
    rw [Bool.not_eq_true] at hlive
    rw [hlive, Bool.false_or] at hcut
    rw [if_pos hcut]
    obtain ⟨s', w', hend, hleaves⟩ := endWith_leavesAlone (ι := ι) (σ := σ) (α := α) (.error .cancelled)
      { (c.state.abandonInner w).2 with cancelled := true }
      ((c.state.abandonInner w).2.write (c.state.abandonInner w).1 [.deadlineExceeded])
    exact ⟨s', w', hend, hleaves.backend.trans hinner.backend, hleaves.hold.trans hinner.hold⟩

end Running

end

/-! ## §3. Programs. -/

/-- Any number of steps of a program, and what it has asked of the store on the way. -/
inductive Program.Runs {ο α : Type} :
    Table → Program ο α → List Transaction → Table → Program ο α → Prop
  | refl {t : Table} {p : Program ο α} : Runs t p [] t p
  | step {t t' t'' : Table} {p p' p'' : Program ο α} {asked : Option Transaction}
      {trace : List Transaction} (h : p.Step t asked t' p') (hs : Runs t' p' trace t'' p'') :
      Runs t p (asked.toList ++ trace) t'' p''

variable {ι ο σ α β : Type}

/-- What is left of a program. -/
def Progress.rest : Progress ο β → Program ο β
  | finished b => .done b
  | waiting p => p

/-- What has come of a program has come of it by steps. -/
def Program.Follows (t : Table) (p : Program ο β) (x : Progress ο β × World × CallState ο) : Prop :=
  ∃ trace t', x.2.1.Holds t' ∧ x.2.2.hold.Harmless ∧ Program.Runs t p trace t' x.1.rest

theorem Program.Follows.step {t t' : Table} {p p' : Program ο β} {asked : Option Transaction}
    {x : Progress ο β × World × CallState ο} (h : p.Step t asked t' p') (hx : p'.Follows t' x) :
    p.Follows t x := by
  obtain ⟨trace, t'', hw, hs, hruns⟩ := hx
  exact ⟨_, t'', hw, hs, .step h hruns⟩

/-- A program that is executed does nothing but steps. -/
theorem advance_follows (p : Program ο β) {w : World} {s : CallState ο} {t : Table} (hw : w.Holds t)
    (hs : s.hold.Harmless) : p.Follows t (advance p w s) := by
  induction p generalizing w s t with
  | done b => exact ⟨[], t, hw, hs, .refl⟩
  | store op next ih =>
    unfold advance
    rcases hw.attempt hs s.spans op with ⟨w', h', hattempt, hw', hs', _⟩
      | ⟨w', h', hattempt, hw', hs', _⟩
    · rw [hattempt]
      exact .step (.store op next w.wall) (ih _ hw' hs')
    · -- the store is slow, and nothing has been done yet
      rw [hattempt]
      exact ⟨[], t, hw', hs', .refl⟩
  | send item next ih =>
    unfold advance
    simp only
    split
    · -- nobody reads any more
      exact .step (.send item next false) (ih false hw hs)
    · split
      · exact .step (.send item next true) (ih true hw hs)
      · -- there is no room, and the program waits for it
        exact ⟨[], t, hw, hs, .refl⟩
  | live next ih => exact .step (.live next _) (ih _ hw hs)
  | clock next ih => exact .step (.clock next w.wall) (ih w.wall (hw.of_backend rfl) hs)
  | note n next ih => exact .step (.note n next) (ih (hw.of_backend rfl) hs)
  | pause ms next ih =>
    unfold advance World.wait
    simp only
    by_cases hwake : s.hold.wake.getD (w.clock + ms) ≤ w.clock
    · simp only [hwake, if_true]
      exact .step (.pause ms next) (ih hw hs)
    · simp only [hwake, if_false]
      exact ⟨[], t, hw, hs, .refl⟩
  | cancel next ih =>
    -- the call gives way, and goes on when it is looked at again
    exact ⟨_, t, hw, hs, .step (.cancel next) .refl⟩
  | claims next ih => exact .step (.claims next s.claims) (ih _ hw hs)
  | enter next ih =>
    have hleaves := s.enter_leavesAlone w
    exact .step (.enter next _) (ih _ (hleaves.holds hw) (hleaves.harmless hs))
  | leave failure next ih =>
    have hleaves := s.close_leavesAlone w failure.isSome (CallState.endNote · failure)
    exact .step (.leave failure next) (ih (hleaves.holds hw) (hleaves.harmless hs))

end UserDirectory.Call

namespace UserDirectory.Service

open UserDirectory.Call
open UserDirectory.Store (Table)

/-! ## §4. Calls. -/

/-- Any number of steps of a call, and what it has asked of the store on the way. -/
inductive Course.Runs {r : Request} : Table → Course r → List Transaction → Table → Course r → Prop
  | refl {t : Table} {c : Course r} : Runs t c [] t c
  | step {t t' t'' : Table} {c c' c'' : Course r} {asked : Option Transaction}
      {trace : List Transaction} (h : c.Step t asked t' c') (hs : Runs t' c' trace t'' c'') :
      Runs t c (asked.toList ++ trace) t'' c''

variable {r : Request} {t t' t'' : Table}

theorem Course.Runs.trans {c c' c'' : Course r} {trace trace' : List Transaction}
    (h : Course.Runs t c trace t' c') (h' : Course.Runs t' c' trace' t'' c'') :
    Course.Runs t c (trace ++ trace') t'' c'' := by
  induction h with
  | refl => exact h'
  | step hstep _ ih =>
    rw [List.append_assoc]
    exact .step hstep (ih h')

/-- The steps of the program for a message are steps of the call. -/
theorem Course.Runs.handling {trace : List Transaction}
    {p p' : Program r.method.Response (Except ServiceError r.method.Progress)}
    (h : Program.Runs t p trace t' p') (rest : List (Arrival r.method.Item)) :
    Course.Runs t (.going (.handling p) rest) trace t' (.going (.handling p') rest) := by
  induction h with
  | refl => exact .refl
  | step hstep _ ih => exact .step (.handle rest hstep) ih

/-- The steps of the last program are steps of the call. -/
theorem Course.Runs.closing {trace : List Transaction}
    {p p' : Program r.method.Response (Except ServiceError r.method.Result)}
    (h : Program.Runs t p trace t' p') (rest : List (Arrival r.method.Item)) :
    Course.Runs t (.going (.closing p) rest) trace t' (.going (.closing p') rest) := by
  induction h with
  | refl => exact .refl
  | step hstep _ ih => exact .step (.close rest hstep) ih

/-- The call of a request as it is executed. -/
abbrev Request.Running (r : Request) : Type :=
  Call.Running r.method.Item r.method.Response r.method.Progress r.method.Result

/-- What comes of looking at the call of a request. -/
abbrev Request.Poll (r : Request) : Type :=
  Call.Poll r.method.Item r.method.Response r.method.Progress r.method.Result

/-- A call is that of a request: it has its handler, and its stream ends as that of the request. -/
structure Request.Running.IsOf (r : Request) (c : r.Running) : Prop where
  handler : c.handler = r.handler
  silent : c.inbound.silent = r.inbound.silent

/-- How far a call has come that is executed. -/
def Request.Running.course (c : r.Running) : Course r := .going c.stage c.inbound.arrivals

/-- How far a call has come that has been looked at. -/
def Request.Poll.course : r.Poll → Course r
  | .waiting c => Request.Running.course c
  | .ended result _ => .ended result

/-- The state of a call that has been looked at. -/
def Request.Poll.state : r.Poll → CallState r.method.Response
  | .waiting c => c.state
  | .ended _ s => s

/-- Whether what has come of a call is that of a request still. -/
def Request.Poll.IsOf : r.Poll → Prop
  | .waiting c => Request.Running.IsOf r c
  | .ended _ _ => True

/-- What has come of a call has come of it by steps. -/
def Course.Follows (t : Table) (c : Course r) (x : r.Poll × World) : Prop :=
  ∃ trace t', x.2.Holds t' ∧ (Request.Poll.state x.1).hold.Harmless ∧ Request.Poll.IsOf x.1
    ∧ Course.Runs t c trace t' (Request.Poll.course x.1)

theorem Course.Follows.step {c c' : Course r} {asked : Option Transaction} {x : r.Poll × World}
    (h : c.Step t asked t' c') (hx : c'.Follows t' x) : c.Follows t x := by
  obtain ⟨trace, t'', hw, hs, hof, hruns⟩ := hx
  exact ⟨_, t'', hw, hs, hof, .step h hruns⟩

theorem Course.Follows.of_runs {c c' : Course r} {trace : List Transaction} {x : r.Poll × World}
    (h : Course.Runs t c trace t' c') (hx : c'.Follows t' x) : c.Follows t x := by
  obtain ⟨trace', t'', hw, hs, hof, hruns⟩ := hx
  exact ⟨_, t'', hw, hs, hof, h.trans hruns⟩

variable {w : World} {s : CallState r.method.Response}

/-- What a receiver finds: nothing since the call is cancelled, an end, nothing yet, a message or a
failure. -/
theorem receive_cases {ι : Type} (i : Inbound ι) (cancelled : Bool) (now : Nat) :
    i.receive cancelled now = (.failed .cancelled, [], i)
    ∨ (i.arrivals = [] ∧ i.silent = false ∧ i.receive cancelled now = (.ended, [], i))
    ∨ (∃ due, i.receive cancelled now = (.nothing, [], { i with due }))
    ∨ (∃ x delay rest, i.arrivals = ⟨.ok x, delay⟩ :: rest
      ∧ i.receive cancelled now = (.item x, [], ⟨rest, i.silent, none⟩))
    ∨ ∃ cause delay rest, i.arrivals = ⟨.error cause, delay⟩ :: rest
      ∧ i.receive cancelled now
        = (.failed (inboundFailure cause), inboundNotes cause, ⟨rest, i.silent, none⟩) := by
  obtain ⟨arrivals, silent, due⟩ := i
  unfold Inbound.receive
  split
  · exact .inl rfl
  · cases arrivals with
    | nil =>
      cases silent with
      | false => exact .inr (.inl ⟨rfl, rfl, rfl⟩)
      | true => exact .inr (.inr (.inl ⟨due, rfl⟩))
    | cons a rest =>
      obtain ⟨content, delay⟩ := a
      simp only
      split
      · cases content with
        | ok x => exact .inr (.inr (.inr (.inl ⟨x, delay, rest, rfl, rfl⟩)))
        | error cause => exact .inr (.inr (.inr (.inr ⟨cause, delay, rest, rfl, rfl⟩)))
      · exact .inr (.inr (.inl ⟨_, rfl⟩))

/-- The end of a call, executed. -/
theorem closing_follows {i : Inbound r.method.Item} (hi : i.silent = r.inbound.silent)
    (p : Program r.method.Response (Except ServiceError r.method.Result)) (hw : w.Holds t)
    (hs : s.hold.Harmless) :
    Course.Follows t (.going (.closing p) i.arrivals) (Call.Running.closing r.handler i p w s) := by
  obtain ⟨trace, t', hw', hs', hruns⟩ := advance_follows p hw hs
  have hsteps := Course.Runs.closing hruns i.arrivals
  unfold Call.Running.closing
  rcases hx : advance p w s with ⟨progress, w', s'⟩
  rw [hx] at hw' hs' hsteps
  cases progress with
  | finished result =>
    exact .of_runs hsteps (.step (.finish result i.arrivals) ⟨[], t', hw', hs', trivial, .refl⟩)
  | waiting p' => exact .of_runs hsteps ⟨[], t', hw', hs', ⟨rfl, hi⟩, .refl⟩

/-- The messages that are there are taken one after another. -/
theorem serve_follows (arrivals : List (Arrival r.method.Item)) {i : Inbound r.method.Item}
    (hi : i.silent = r.inbound.silent) (harrivals : arrivals = i.arrivals)
    (kept : r.method.Progress) {w : World} {s : CallState r.method.Response} {t : Table}
    (hw : w.Holds t) (hs : s.hold.Harmless) :
    Course.Follows t (.going (.awaiting kept) i.arrivals)
      (Call.Running.serve r.handler arrivals i kept w s) := by
  induction hn : arrivals.length using Nat.strongRecOn generalizing arrivals i kept w s t with
  | _ n ih =>
    unfold Call.Running.serve
    rcases receive_cases i (s.isCancelled w) w.clock with hreceive | ⟨hnone, hends, hreceive⟩
      | ⟨due, hreceive⟩ | ⟨x, delay, rest, hmore, hreceive⟩ | ⟨cause, delay, rest, hmore, hreceive⟩
    · -- nothing more is taken in a call that has been cancelled
      simp only [hreceive]
      exact .step (.cut _ _) ⟨[], t, hw.of_backend rfl, hs, trivial, .refl⟩
    · -- the stream is at its end
      simp only [hreceive, hnone]
      have hnote : (s.write w []).Holds t := hw.of_backend rfl
      have hend := closing_follows hi (r.handler.onEnd kept) hnote hs
      rw [hnone] at hend
      exact .step (.exhaust kept (hi ▸ hends)) hend
    · -- nothing has come yet
      simp only [hreceive]
      exact ⟨[], t, hw.of_backend rfl, hs, ⟨rfl, hi⟩, .refl⟩
    · -- a message is taken, and the program for it goes on as far as it can
      have hnote : (s.write w []).Holds t := hw.of_backend rfl
      obtain ⟨trace, t', hw', hs', hruns⟩ := advance_follows (r.handler.onItem kept x) hnote hs
      have hsteps := Course.Runs.handling hruns rest
      simp only [hreceive]
      rw [hmore] at harrivals ⊢
      refine .step (.take kept x delay rest) ?_
      rcases hx : advance (r.handler.onItem kept x) (s.write w []) s with ⟨progress, w', s'⟩
      rw [hx] at hw' hs' hsteps
      cases progress with
      | waiting p => exact .of_runs hsteps ⟨[], t', hw', hs', ⟨rfl, hi⟩, .refl⟩
      | finished result =>
        cases result with
        | error cause =>
          exact .of_runs hsteps (.step (.failed cause rest) ⟨[], t', hw', hs', trivial, .refl⟩)
        | ok kept' =>
          -- the message has been answered, and the next one is waited for
          refine .of_runs hsteps (.step (.answered kept' rest) ?_)
          cases harrivals
          have hless : rest.length < n := by
            rw [← hn]
            exact Nat.lt_succ_self _
          exact ih rest.length hless rest (i := ⟨rest, i.silent, none⟩) hi rfl kept' hw' hs' rfl
    · -- the connection has failed
      simp only [hreceive]
      rw [hmore]
      exact .step (.breakOff kept cause delay rest) ⟨[], t, hw.of_backend rfl, hs, trivial, .refl⟩

/-- A call that is let go on does nothing but steps. -/
theorem work_follows {c : r.Running} (hc : Request.Running.IsOf r c) (hw : w.Holds t)
    (hs : c.state.hold.Harmless) :
    Course.Follows t (Request.Running.course c) (Call.Running.work c w) := by
  obtain ⟨handler, stage, i, s⟩ := c
  obtain ⟨rfl, hi⟩ := hc
  unfold Call.Running.work Request.Running.course
  cases stage with
  | awaiting kept => exact serve_follows i.arrivals hi rfl kept hw hs
  | closing p => exact closing_follows hi p hw hs
  | handling p =>
    obtain ⟨trace, t', hw', hs', hruns⟩ := advance_follows p hw hs
    have hsteps := Course.Runs.handling hruns i.arrivals
    simp only
    rcases hx : advance p w s with ⟨progress, w', s'⟩
    rw [hx] at hw' hs' hsteps
    cases progress with
    | waiting p' => exact .of_runs hsteps ⟨[], t', hw', hs', ⟨rfl, hi⟩, .refl⟩
    | finished result =>
      cases result with
      | error cause =>
        exact .of_runs hsteps (.step (.failed cause _) ⟨[], t', hw', hs', trivial, .refl⟩)
      | ok kept =>
        exact .of_runs hsteps (.step (.answered kept _)
          (serve_follows i.arrivals hi rfl kept hw' hs'))

/-- A call that is looked at does nothing but steps. -/
theorem poll_follows {c : r.Running} (hc : Request.Running.IsOf r c) (hw : w.Holds t)
    (hs : c.state.hold.Harmless) :
    Course.Follows t (Request.Running.course c) (Call.Running.poll c w) := by
  cases hcut : c.state.isCancelled w || c.state.isOverdue w with
  | true =>
    obtain ⟨s', w', hpoll, hleaves⟩ := Running.poll_of_cut c w hcut
    rw [hpoll]
    exact .step (.cut _ _) ⟨[], t, hleaves.holds hw, hleaves.harmless hs, trivial, .refl⟩
  | false =>
    obtain ⟨hlive, hearly⟩ := Bool.or_eq_false_iff.1 hcut
    obtain ⟨trace, t', hw', hs', hof, hruns⟩ := work_follows hc hw hs
    unfold Call.Running.poll
    rw [hlive, hearly]
    rcases hx : Call.Running.work c w with ⟨poll, w'⟩
    rw [hx] at hw' hs' hof hruns
    cases poll with
    | waiting c' => exact ⟨trace, t', hw', hs', hof, hruns⟩
    | ended result s' =>
      -- the outermost pass ends with the call
      obtain ⟨s'', w'', hend, hleaves⟩ :=
        Running.endWith_leavesAlone (ι := r.method.Item) (σ := r.method.Progress) result s' w'
      show Course.Follows t _ (Call.Running.endWith result s' w')
      rw [hend]
      exact ⟨trace, t', hleaves.holds hw', hleaves.harmless hs', trivial, hruns⟩

/-! ## §5. Calls and their callers. -/

/-- The call of a request and its caller. -/
abbrev Request.Exchange (r : Request) : Type :=
  Call.Exchange r.method.Item r.method.Response r.method.Progress r.method.Result

namespace Request.Exchange

/-- How far a call has come.  One that has never been let work has left nothing behind. -/
def course (e : r.Exchange) : Course r :=
  match e.phase with
  | .fresh c => Request.Running.course c
  | .running c => Request.Running.course c
  | .ended result _ => if e.entered then .ended result else .dropped

/-- A call is that of a request; one that has not begun has not been let work. -/
def IsOf (r : Request) (e : r.Exchange) : Prop :=
  match e.phase with
  | .fresh c => Request.Running.IsOf r c ∧ e.entered = false
  | .running c => Request.Running.IsOf r c
  | .ended _ _ => True

/-- What has come of a call and its caller has come of it by steps. -/
def Follows (t : Table) (c : Course r) (x : r.Exchange × World) : Prop :=
  ∃ trace t', x.2.Holds t' ∧ x.1.state.hold.Harmless ∧ IsOf r x.1 ∧ Course.Runs t c trace t' x.1.course

/-- Neither the caller nor a cancellation changes how far a call has come. -/
theorem course_mapState (e : r.Exchange)
    (f : CallState r.method.Response → CallState r.method.Response) :
    course (e.mapState f) = course e := by
  obtain ⟨manner, cancelAt, entered, phase⟩ := e
  cases phase with
  | fresh c => rfl
  | running c => rfl
  | ended result s => rfl

theorem isOf_mapState {e : r.Exchange} (h : IsOf r e)
    (f : CallState r.method.Response → CallState r.method.Response) : IsOf r (e.mapState f) := by
  obtain ⟨manner, cancelAt, entered, phase⟩ := e
  cases phase with
  | fresh c => exact ⟨⟨h.1.handler, h.1.silent⟩, h.2⟩
  | running c => exact ⟨h.handler, h.silent⟩
  | ended result s => trivial

theorem state_mapState (e : r.Exchange)
    (f : CallState r.method.Response → CallState r.method.Response) :
    (e.mapState f).state = f e.state := by
  obtain ⟨manner, cancelAt, entered, phase⟩ := e
  cases phase with
  | fresh c => rfl
  | running c => rfl
  | ended result s => rfl

/-- What changes the state of a call changes nothing else, if it leaves alone what the call waits
for. -/
theorem Follows.mapState {c : Course r} {x : r.Exchange × World} (h : Follows t c x)
    {f : CallState r.method.Response → CallState r.method.Response}
    (hf : (f x.1.state).hold = x.1.state.hold) : Follows t c (x.1.mapState f, x.2) := by
  obtain ⟨trace, t', hw, hs, hof, hruns⟩ := h
  refine ⟨trace, t', hw, ?_, isOf_mapState hof f, ?_⟩
  · rw [state_mapState, hf]
    exact hs
  · rw [course_mapState]
    exact hruns

/-- What the chain does to the state of a call changes nothing else. -/
theorem Follows.leavesAlone {c : Course r} {x : r.Exchange × World} (h : Follows t c x) {w' : World}
    {s' : CallState r.method.Response} (hleaves : LeavesAlone x.2 x.1.state w' s') :
    Follows t c (x.1.mapState fun _ => s', w') := by
  obtain ⟨trace, t', hw, hs, hof, hruns⟩ := h
  refine ⟨trace, t', hleaves.holds hw, ?_, isOf_mapState hof _, ?_⟩
  · rw [state_mapState]
    exact hleaves.harmless hs
  · rw [course_mapState]
    exact hruns

/-- A call ends as what has come of it says. -/
theorem conclude_follows {e : r.Exchange} {c : Course r} {w' : World}
    {s' : CallState r.method.Response} {trace : List Transaction}
    {result : Except ServiceError r.method.Result} (hw : w'.Holds t') (hs : s'.hold.Harmless)
    (hruns : Course.Runs t c trace t' (if e.entered then .ended result else .dropped)) :
    Follows t c (e.conclude result s' w') := by
  unfold Call.Exchange.conclude
  split
  · unfold Call.Exchange.deliver
    simp only
    split
    · exact ⟨trace, t', hw.of_backend rfl, hs, trivial, hruns⟩
    · exact ⟨trace, t', hw, hs, trivial, hruns⟩
  · exact ⟨trace, t', hw, hs, trivial, hruns⟩

/-- A call that has begun and is looked at does nothing but steps. -/
theorem look_follows (e : r.Exchange) {c : r.Running} (hc : Request.Running.IsOf r c)
    (hw : w.Holds t) (hs : c.state.hold.Harmless) :
    Follows t (Request.Running.course c) (e.look c w) := by
  -- the handler is let work, or the call ends without it
  have hlook : ∀ x : r.Poll × World, (if e.manner = .bare then c.work w else c.poll w) = x →
      e.letsWork c.state w = true → Course.Follows t (Request.Running.course c) x →
      Follows t (Request.Running.course c) (e.look c w) := by
    rintro ⟨poll, w'⟩ hx hworks ⟨trace, t', hw', hs', hof, hruns⟩
    unfold Call.Exchange.look
    simp only [hx, hworks, Bool.or_true]
    cases poll with
    | waiting c' => exact ⟨trace, t', hw', hs', hof, hruns⟩
    | ended result s' => exact conclude_follows hw' hs' hruns
  by_cases hbare : e.manner = .bare
  · -- no chain stands around the handler
    refine hlook _ rfl ?_ ?_
    · unfold Call.Exchange.letsWork
      rw [decide_eq_true hbare, Bool.true_or]
    · rw [if_pos hbare]
      exact work_follows hc hw hs
  · cases hcut : c.state.isCancelled w || c.state.isOverdue w with
    | false =>
      refine hlook _ rfl ?_ ?_
      · unfold Call.Exchange.letsWork
        rw [hcut, Bool.not_false, Bool.or_true]
      · rw [if_neg hbare]
        exact poll_follows hc hw hs
    | true =>
      obtain ⟨s', w', hpoll, hleaves⟩ := Running.poll_of_cut c w hcut
      have hidle : e.letsWork c.state w = false := by
        unfold Call.Exchange.letsWork
        rw [hcut, decide_eq_false hbare]
        rfl
      -- a call whose handler has not begun is as good as dropped
      have hend : Course.Runs t (Request.Running.course c) [] t
          (if e.entered then .ended (.error .cancelled) else .dropped) := by
        split
        · exact .step (.cut _ _) .refl
        · exact .step (.drop _ _) .refl
      unfold Call.Exchange.look
      simp only [hbare, if_false, hpoll, hidle, Bool.or_false]
      exact conclude_follows (hleaves.holds hw) (hleaves.harmless hs) hend

/-- A call that is let go on does nothing but steps.  One that is not let through does none. -/
theorem work_follows {e : r.Exchange} (he : IsOf r e) (hw : w.Holds t)
    (hs : e.state.hold.Harmless) : Follows t (course e) (e.work w) := by
  obtain ⟨manner, cancelAt, entered, phase⟩ := e
  cases phase with
  | ended result s => exact ⟨[], t, hw, hs, trivial, .refl⟩
  | running c => exact look_follows _ he hw hs
  | fresh c =>
    obtain ⟨hc, rfl⟩ := he
    unfold Call.Exchange.work
    simp only
    split
    · exact look_follows _ hc hw hs
    · have hleaves := c.state.enter_leavesAlone w
      unfold Call.Running.enter
      rcases hx : c.state.enter w with ⟨refusal, w', s'⟩
      rw [hx] at hleaves
      cases refusal with
      | none =>
        exact look_follows _ (c := { c with state := s' }) ⟨hc.handler, hc.silent⟩
          (hleaves.holds hw) (hleaves.harmless hs)
      | some cause =>
        -- the chain has refused the call, whose handler never begins
        exact conclude_follows (hleaves.holds hw) (hleaves.harmless hs) (.step (.drop _ _) .refl)

/-- The caller reads, and may leave by that. -/
theorem read_follows {c : Course r} {x : r.Exchange × World} (h : Follows t c x) :
    Follows t c (x.1.read, x.2) := by
  have hread := h.mapState (f := fun s => { s with outbound := s.outbound.read x.1.hasEnded }) rfl
  unfold Call.Exchange.read
  simp only
  split
  · exact hread.mapState (f := fun s => { s with cancelled := true }) rfl
  · exact hread

theorem turn_follows {e : r.Exchange} (he : IsOf r e) (hw : w.Holds t)
    (hs : e.state.hold.Harmless) : Follows t (course e) (e.turn w) :=
  read_follows (work_follows he hw hs)

theorem Follows.turn {c : Course r} {x : r.Exchange × World} (h : Follows t c x) :
    Follows t c (x.1.turn x.2) := by
  obtain ⟨trace, t', hw, hs, hof, hruns⟩ := h
  obtain ⟨trace', t'', hw', hs', hof', hruns'⟩ := turn_follows hof hw hs
  exact ⟨_, t'', hw', hs', hof', hruns.trans hruns'⟩

/-- All that a call does at an instant are steps of it. -/
theorem settle_follows {e : r.Exchange} (he : IsOf r e) (hw : w.Holds t)
    (hs : e.state.hold.Harmless) : Follows t (course e) (e.settle w) := by
  have hbefore : Follows t (course e) (e, w) := ⟨[], t, hw, hs, he, .refl⟩
  have hdue : Follows t (course e) (e.cancelWhenDue w.clock, w) := by
    unfold Call.Exchange.cancelWhenDue
    split
    · exact hbefore.mapState (f := fun s => { s with cancelled := true }) rfl
    · exact hbefore
  have hturn := hdue.turn
  unfold Call.Exchange.settle
  simp only
  split
  · exact hturn.turn
  · exact hturn

/-- A caller who loses patience brings about nothing but steps of the call. -/
theorem giveUp_follows {e : r.Exchange} (he : IsOf r e) (hw : w.Holds t)
    (hs : e.state.hold.Harmless) : Follows t (course e) (e.giveUp w) := by
  have hbefore : Follows t (course e) (e, w) := ⟨[], t, hw, hs, he, .refl⟩
  unfold Call.Exchange.giveUp
  split
  · exact hbefore
  · -- the caller leaves first; then the call is told so, or what is open of it is given up
    have hleft := hbefore.mapState
      (f := fun s => { s with outbound := s.outbound.leave .abandoned }) rfl
    simp only
    split
    · obtain ⟨trace, t', hw', hs', hof, hruns⟩ :=
        hleft.mapState (f := fun s => { s with cancelled := true }) rfl
      obtain ⟨trace', t'', hw'', hs'', hof', hruns'⟩ := settle_follows hof hw' hs'
      exact ⟨_, t'', hw'', hs'', hof', hruns.trans hruns'⟩
    · exact hleft.leavesAlone (CallState.abandonTo_leavesAlone 0 _ _ _)

end Request.Exchange

end UserDirectory.Service
