import UserDirectory.Proofs.Call.Life
import UserDirectory.Proofs.Concurrency.Execution
/-!
# What deeds leave in a world

The deeds of a call that is executed can be read off the world: the metrics have counted them, the log
has the lines about the beginnings and ends of passes, the store has given what it was asked for, and the
clock on the wall has shown one reading after another.

Main statements:
  * `World.attempt_leads`: what is asked of the store;
  * `CallState.close_owes`, `CallState.abandonTo_owes`, `CallState.enter_owes`: what the chain does.
-/

namespace UserDirectory.Telemetry

/-- Whether a line is about the beginning or the end of a pass through the chain. -/
def Note.isOfPass : Note → Bool
  | callStarted => true
  | callCompleted _ => true
  | callFailed .. => true
  | callAbandoned _ => true
  | _ => false

/-- Whether a line tells of the end of a pass, and whether as a failure. -/
def Note.failure? : Note → Option Bool
  | callCompleted _ => some false
  | callFailed .. => some true
  | callAbandoned _ => some true
  | _ => none

end UserDirectory.Telemetry

namespace UserDirectory.Call

open UserDirectory.Service (ServiceError)
open UserDirectory.Store (Operation Table)
open UserDirectory.Telemetry (Metrics Note Span)
open UserDirectory.Time (Instant)

variable {ο : Type}

/-! ## §1. What is left of a deed. -/

/-- The lines of a log about the beginnings and ends of passes. -/
def World.passNotes (w : World) : List Note := (w.log.map (·.note)).filter Note.isOfPass

theorem World.passNotes_write (w : World) (spans : List Span) (notes : List Note) :
    (w.write spans notes).passNotes = w.passNotes ++ notes.filter Note.isOfPass := by
  simp [passNotes, write, Function.comp_def]

theorem PassEnd.isOfPass_note (millis : Nat) (e : PassEnd) : (e.note millis).isOfPass = true := by
  cases e <;> rfl

namespace Deed

/-- What is counted after a deed of a call of a method. -/
def count (method : String) (m : Metrics) : Deed → Metrics
  | enter => m.enter
  | record millis failed => m.record method (.ofMillis millis) failed
  | leave => m.leave
  | _ => m

/-- The line about the beginning or end of a pass, if a deed adds one. -/
def told : Deed → Option Note
  | tell n => if n.isOfPass then some n else none
  | _ => none

theorem told_closing (millis : Nat) (e : PassEnd) :
    (closing millis e).filterMap told = [e.note millis] := by
  simp [closing, List.filterMap_cons, told, PassEnd.isOfPass_note]

/-- What the clock has shown, if a deed reads it. -/
def reading : Deed → Option Instant
  | transact now _ => some now
  | read now => some now
  | _ => none

end Deed

/-- A clock that shows an instant gives these readings, and shows another instant after them. -/
def Reads : Instant → List Instant → Instant → Prop
  | wall, [], wall' => wall' = wall
  | wall, now :: more, wall' => now = wall ∧ Reads ((wall.plus? World.tick).getD wall) more wall'

theorem Reads.append {wall wall' wall'' : Instant} {readings more : List Instant}
    (h : Reads wall readings wall') (h' : Reads wall' more wall'') :
    Reads wall (readings ++ more) wall'' := by
  induction readings generalizing wall with
  | nil =>
    cases h
    exact h'
  | cons now readings ih => exact ⟨h.1, ih h.2⟩

/-- The store that begins with a table gives these answers, and ends with another. -/
def Answers : Table → List Deed → Table → Prop
  | t, [], t' => t' = t
  | t, .transact now x :: more, t' =>
    x.outcome = (t.perform now x.operation).1 ∧ Answers (t.perform now x.operation).2 more t'
  | t, _ :: more, t' => Answers t more t'

theorem answers_append {t t'' : Table} {deeds deeds' : List Deed} :
    Answers t (deeds ++ deeds') t'' ↔ ∃ t', Answers t deeds t' ∧ Answers t' deeds' t'' := by
  induction deeds generalizing t with
  | nil => exact ⟨fun h => ⟨t, rfl, h⟩, fun ⟨_, h, h'⟩ => h ▸ h'⟩
  | cons d more ih =>
    cases d with
    | transact now x =>
      constructor
      · rintro ⟨hx, h⟩
        obtain ⟨t', h, h'⟩ := ih.1 h
        exact ⟨t', ⟨hx, h⟩, h'⟩
      · rintro ⟨t', ⟨hx, h⟩, h'⟩
        exact ⟨hx, ih.2 ⟨t', h, h'⟩⟩
    | _ => exact ih

/-- Whoever asks for nothing changes nothing. -/
theorem answers_iff_eq {t t' : Table} {deeds : List Deed} (h : deeds.filterMap Deed.reading = []) :
    Answers t deeds t' ↔ t' = t := by
  induction deeds with
  | nil => exact Iff.rfl
  | cons d more ih =>
    rw [List.filterMap_eq_nil_iff] at h ih
    have hmore := ih fun d hd => h d (List.mem_cons_of_mem _ hd)
    cases d with
    | transact now x => cases h _ List.mem_cons_self
    | _ => exact hmore

/-! ## §2. Calls and worlds. -/

/-- A call in its world has done some deeds and stands where it stands now. -/
structure Leads (w : World) (s : CallState ο) (deeds : List Deed) (w' : World) (s' : CallState ο) :
    Prop where
  context : s'.context = s.context
  metrics : w'.metrics = deeds.foldl (Deed.count s.context.method) w.metrics
  passNotes : w'.passNotes = w.passNotes ++ deeds.filterMap Deed.told
  table : ∀ t, w.Holds t → s.hold.Harmless →
    ∃ t', w'.Holds t' ∧ s'.hold.Harmless ∧ Answers t deeds t'
      ∧ Reads w.wall (deeds.filterMap Deed.reading) w'.wall

section

variable {w w' w'' : World} {s s' s'' : CallState ο} {deeds deeds' : List Deed}

theorem Leads.refl : Leads w s [] w s :=
  ⟨rfl, rfl, (List.append_nil _).symm, fun t hw hs => ⟨t, hw, hs, rfl, rfl⟩⟩

theorem Leads.trans (h : Leads w s deeds w' s') (h' : Leads w' s' deeds' w'' s'') :
    Leads w s (deeds ++ deeds') w'' s'' where
  context := h'.context.trans h.context
  metrics := by rw [h'.metrics, h.context, h.metrics, List.foldl_append]
  passNotes := by rw [h'.passNotes, h.passNotes, List.filterMap_append, List.append_assoc]
  table t hw hs := by
    obtain ⟨t', hw', hs', ht', hread⟩ := h.table t hw hs
    obtain ⟨t'', hw'', hs'', ht'', hread'⟩ := h'.table t' hw' hs'
    refine ⟨t'', hw'', hs'', answers_append.2 ⟨t', ht', ht''⟩, ?_⟩
    rw [List.filterMap_append]
    exact hread.append hread'

/-- Deeds without the store and the clock. -/
theorem Leads.of_leavesAlone (h : LeavesAlone w s w' s') (hcontext : s'.context = s.context)
    (hmetrics : w'.metrics = deeds.foldl (Deed.count s.context.method) w.metrics)
    (hnotes : w'.passNotes = w.passNotes ++ deeds.filterMap Deed.told) (hwall : w'.wall = w.wall)
    (hdeeds : deeds.filterMap Deed.reading = []) : Leads w s deeds w' s' where
  context := hcontext
  metrics := hmetrics
  passNotes := hnotes
  table t hw hs := ⟨t, h.holds hw, h.harmless hs, (answers_iff_eq hdeeds).2 rfl, by rw [hdeeds]; exact hwall⟩

/-- Nothing that others can tell has happened. -/
theorem Leads.of_quiet (h : LeavesAlone w s w' s') (hcontext : s'.context = s.context)
    (hmetrics : w'.metrics = w.metrics) (hnotes : w'.passNotes = w.passNotes)
    (hwall : w'.wall = w.wall) : Leads w s [] w' s' :=
  .of_leavesAlone h hcontext hmetrics (hnotes.trans (List.append_nil _).symm) hwall rfl

/-- The clock is read. -/
theorem Leads.read (s : CallState ο) (w : World) : Leads w s [.read w.wall] w.readWall.2 s where
  context := rfl
  metrics := rfl
  passNotes := (List.append_nil _).symm
  table t hw hs := ⟨t, hw.of_backend rfl, hs, rfl, rfl, rfl⟩

/-- A line of whatever kind is written. -/
theorem Leads.tell (s : CallState ο) (w : World) (n : Note) :
    Leads w s [.tell n] (s.write w [n]) s := by
  refine .of_leavesAlone ⟨rfl, rfl⟩ rfl rfl ?_ rfl rfl
  unfold CallState.write
  rw [World.passNotes_write]
  by_cases h : n.isOfPass <;> simp [Deed.told, h]

/-- Lines are written that are not about passes. -/
theorem Leads.write {notes : List Note} (h : notes.filter Note.isOfPass = []) (s : CallState ο)
    (w : World) : Leads w s [] (s.write w notes) s :=
  .of_quiet ⟨rfl, rfl⟩ rfl rfl
    (by
      unfold CallState.write
      rw [World.passNotes_write, h, List.append_nil])
    rfl

/-! ## §3. The store. -/

/-- What is noted about an operation is not about passes. -/
theorem isOfPass_perform (b : Store.Backend) (now : Time.Instant) (op : Operation) :
    (b.perform now op).2.2.filter Note.isOfPass = [] := by
  unfold Store.Backend.perform Store.Engine.perform
  cases b.engine with
  | memory table => rfl
  | relational server history =>
    simp only
    cases Store.Relational.queryOf now op with
    | error e => rfl
    | ok q =>
      simp only [Store.Relational.noteOf]
      split <;> rfl

/-- What asking for an operation and performing it leaves alone. -/
structure World.Unheard (w w' : World) : Prop where
  metrics : w'.metrics = w.metrics
  passNotes : w'.passNotes = w.passNotes

theorem World.askOnce_unheard (w : World) (h : Hold) (op : Operation) :
    w.Unheard (w.askOnce h op).2.1 := by
  unfold World.askOnce
  split <;> exact ⟨rfl, rfl⟩

theorem World.perform_unheard (w : World) (spans : List Span) (op : Operation) :
    w.Unheard (w.perform spans op).2 := by
  refine ⟨rfl, ?_⟩
  unfold World.perform
  simp only [World.passNotes_write, isOfPass_perform, List.append_nil]
  rfl

theorem World.undergo_unheard (w : World) (spans : List Span) (op : Operation) (f : Store.Fault) :
    w.Unheard (w.undergo spans op f).2 := by
  have hcancelled : w.Unheard (if f.cancels then { w with directCancelled := true } else w) := by
    split <;> exact ⟨rfl, rfl⟩
  unfold World.undergo
  simp only
  cases f.error with
  | some e => exact hcancelled
  | none =>
    have hdone := World.perform_unheard (if f.cancels then { w with directCancelled := true } else w)
      spans op
    exact ⟨hdone.metrics.trans hcancelled.metrics, hdone.passNotes.trans hcancelled.passNotes⟩

theorem World.attempt_unheard (w : World) (spans : List Span) (h : Hold) (op : Operation) :
    w.Unheard (w.attempt spans h op).2.1 := by
  have hask := w.askOnce_unheard h op
  unfold World.attempt
  simp only
  split
  · have hdone := (w.askOnce h op).2.1.undergo_unheard spans op (w.askOnce h op).1
    exact ⟨hdone.metrics.trans hask.metrics, hdone.passNotes.trans hask.passNotes⟩
  · exact hask

/-- An operation that is asked for is a deed once it is performed, and none before. -/
theorem World.attempt_leads (s : CallState ο) (w : World) (op : Operation) :
    Leads w s ((w.attempt s.spans s.hold op).1.toList.map fun r => .transact w.wall ⟨op, r⟩)
      (w.attempt s.spans s.hold op).2.1 { s with hold := (w.attempt s.spans s.hold op).2.2 } := by
  have hunheard := w.attempt_unheard s.spans s.hold op
  refine ⟨rfl, ?_, ?_, fun t hw hs => ?_⟩
  · rw [hunheard.metrics]
    cases (w.attempt s.spans s.hold op).1 <;> rfl
  · rw [hunheard.passNotes]
    cases (w.attempt s.spans s.hold op).1 <;> exact (List.append_nil _).symm
  · rcases hw.attempt hs s.spans op with ⟨w', h', hattempt, hw', hs', hwall⟩
      | ⟨w', h', hattempt, hw', hs', hwall⟩
    · rw [hattempt]
      exact ⟨_, hw', hs', ⟨rfl, rfl⟩, rfl, hwall⟩
    · rw [hattempt]
      exact ⟨t, hw', hs', rfl, hwall⟩

end

/-! ## §4. The chain. -/

/-- The state of a call as it shows in a stance. -/
structure CallState.Shown (s : CallState ο) (g : Stance ο) : Prop where
  depth : g.depth = s.passes.length
  outbound : g.outbound = s.outbound
  /-- whoever reads no more has lost what waited -/
  drained : s.outbound.readerGone = true → s.outbound.waiting = []

/-- A call in its world has done what the stance of it has come to owe. -/
def Owes (w : World) (s : CallState ο) (g : Stance ο) (w' : World) (s' : CallState ο)
    (g' : Stance ο) : Prop :=
  s'.Shown g' ∧ ∃ deeds, g'.owed = g.owed ++ deeds ∧ Leads w s deeds w' s'

section

variable {w w' w'' : World} {s s' s'' : CallState ο} {g g' g'' : Stance ο}

theorem Owes.trans (h : Owes w s g w' s' g') (h' : Owes w' s' g' w'' s'' g'') :
    Owes w s g w'' s'' g'' := by
  obtain ⟨_, deeds, howed, hleads⟩ := h
  obtain ⟨hshown, deeds', howed', hleads'⟩ := h'
  exact ⟨hshown, deeds ++ deeds', by rw [howed', howed, List.append_assoc], hleads.trans hleads'⟩

theorem CallState.begin_owes (hs : s.Shown g) :
    Owes w s g (s.begin w).1 (s.begin w).2 g.begin := by
  refine ⟨⟨?_, hs.outbound, hs.drained⟩, Deed.opening, rfl, ?_⟩
  · show g.depth + 1 = _
    rw [hs.depth]
    rfl
  · refine .of_leavesAlone ⟨rfl, rfl⟩ rfl rfl ?_ rfl rfl
    exact World.passNotes_write w _ [.callStarted]

theorem CallState.close_of_nil (h : s.passes = []) (w : World) (failed : Bool) (note : Nat → Note) :
    s.close w failed note = (w, s) := by
  unfold CallState.close
  rw [h]

theorem CallState.close_of_cons {began : Nat} {outer : List Nat} (h : s.passes = began :: outer)
    (w : World) (failed : Bool) (note : Nat → Note) :
    s.close w failed note =
      ({ s.write w [note (w.clock - began)] with
          metrics := (w.metrics.record s.context.method (.ofMillis (w.clock - began)) failed).leave },
        { s with passes := outer }) := by
  unfold CallState.close
  rw [h]

/-- The innermost pass ends, and all that belongs to it is done. -/
theorem CallState.close_owes (hs : s.Shown g) (w : World) (e : PassEnd) :
    ∃ millis, Owes w s g (s.close w e.isFailure (e.note ·)).1 (s.close w e.isFailure (e.note ·)).2
      (g.close millis e) := by
  cases hpasses : s.passes with
  | nil =>
    have hdepth : g.depth = 0 := by rw [hs.depth, hpasses]; rfl
    refine ⟨0, ?_⟩
    rw [close_of_nil hpasses, Stance.close, if_pos hdepth]
    exact ⟨hs, [], (List.append_nil _).symm, .refl⟩
  | cons began outer =>
    have hdepth : g.depth = outer.length + 1 := by rw [hs.depth, hpasses]; rfl
    refine ⟨w.clock - began, ?_⟩
    rw [close_of_cons hpasses, Stance.close, if_neg (by omega)]
    refine ⟨⟨?_, hs.outbound, hs.drained⟩, Deed.closing _ e, rfl, ?_⟩
    · show g.depth - 1 = outer.length
      omega
    · refine .of_leavesAlone ⟨rfl, rfl⟩ rfl rfl ?_ rfl rfl
      rw [Deed.told_closing]
      refine (World.passNotes_write w _ _).trans ?_
      rw [List.filter_cons_of_pos (PassEnd.isOfPass_note _ e), List.filter_nil]

/-- A pass that ends of itself. -/
theorem CallState.finish_owes (hs : s.Shown g) (w : World) (failure : Option ServiceError) :
    ∃ millis, Owes w s g (s.finish w failure).1 (s.finish w failure).2
      (g.close millis (.ofFailure failure)) := by
  have hclose := close_owes hs w (.ofFailure failure)
  unfold finish
  simpa only [PassEnd.isFailure_ofFailure, PassEnd.note_ofFailure] using hclose

/-- The innermost passes are given up one after another. -/
theorem CallState.abandonTo_owes (hs : s.Shown g) (left n : Nat) (w : World) :
    ∃ times : List Nat, times.length = min n (s.passes.length - left) ∧
      Owes w s g (s.abandonTo left n w).1 (s.abandonTo left n w).2 (g.abandon times) := by
  induction n generalizing s g w with
  | zero =>
    exact ⟨[], (Nat.zero_min _).symm, hs, [], (List.append_nil _).symm, .refl⟩
  | succ n ih =>
    unfold CallState.abandonTo
    split
    · -- as many as there may be left
      exact ⟨[], by rw [List.length_nil]; omega, hs, [], (List.append_nil _).symm, .refl⟩
    · obtain ⟨millis, hclose⟩ := close_owes hs w .abandoned
      obtain ⟨times, htimes, hmore⟩ := ih hclose.1 (s.abandon w).1
      refine ⟨millis :: times, ?_, hclose.trans hmore⟩
      have hlength : (s.abandon w).2.passes.length = s.passes.length - 1 := by
        unfold CallState.abandon
        cases hpasses : s.passes with
        | nil => rw [close_of_nil hpasses, hpasses]; rfl
        | cons began outer => rw [close_of_cons hpasses]; rfl
      rw [List.length_cons, htimes]
      show min n ((s.abandon w).2.passes.length - left) + 1 = _
      rw [hlength]
      omega

/-- The gate writes lines, and none of them is about passes. -/
theorem CallState.letThrough_leads (s : CallState ο) (w : World) :
    Leads w s [] (s.letThrough w).2.1 (s.letThrough w).2.2
      ∧ (s.letThrough w).2.2.passes = s.passes
      ∧ (s.letThrough w).2.2.outbound = s.outbound := by
  unfold CallState.letThrough
  cases w.gate with
  | none => exact ⟨.refl, rfl, rfl⟩
  | some gate =>
    simp only
    cases gate.authority.authenticate s.context.metadata w.second with
    | error e => exact ⟨.write rfl s w, rfl, rfl⟩
    | ok claims =>
      have hnotes : (s.decide gate.policy claims).1.filter Note.isOfPass = [] := by
        unfold CallState.decide
        split
        · split <;> rfl
        · rfl
      have hwrite := Leads.write hnotes s w
      simp only
      split
      · exact ⟨hwrite, rfl, rfl⟩
      · split
        · exact ⟨hwrite, rfl, rfl⟩
        · exact ⟨⟨rfl, hwrite.metrics, hwrite.passNotes, hwrite.table⟩, rfl, rfl⟩

/-- A pass begins, and ends at once if it is not let through. -/
theorem CallState.enter_owes (hs : s.Shown g) (w : World) :
    ((s.enter w).1 = none ∧ Owes w s g (s.enter w).2.1 (s.enter w).2.2 g.begin)
    ∨ ∃ cause millis, (s.enter w).1 = some cause
        ∧ Owes w s g (s.enter w).2.1 (s.enter w).2.2 (g.begin.close millis (.failed cause)) := by
  have hbegin := begin_owes (w := w) hs
  obtain ⟨hleads, hpasses, houtbound⟩ := letThrough_leads (s.begin w).2 (s.begin w).1
  -- what the gate does is not owed
  have hthrough : Owes w s g ((s.begin w).2.letThrough (s.begin w).1).2.1
      ((s.begin w).2.letThrough (s.begin w).1).2.2 g.begin := by
    refine hbegin.trans ⟨⟨?_, ?_, ?_⟩, [], (List.append_nil _).symm, hleads⟩
    · rw [hpasses]
      exact hbegin.1.depth
    · rw [houtbound]
      exact hbegin.1.outbound
    · rw [houtbound]
      exact hbegin.1.drained
  unfold CallState.enter
  simp only
  rcases hx : (s.begin w).2.letThrough (s.begin w).1 with ⟨refusal, w', s'⟩
  rw [hx] at hthrough
  cases refusal with
  | none => exact .inl ⟨rfl, hthrough⟩
  | some cause =>
    obtain ⟨millis, hfinish⟩ := finish_owes hthrough.1 w' (some cause)
    exact .inr ⟨cause, millis, rfl, hthrough.trans hfinish⟩

end

end UserDirectory.Call
