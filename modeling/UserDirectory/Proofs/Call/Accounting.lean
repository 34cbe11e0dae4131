import UserDirectory.Proofs.Call.Traffic
import UserDirectory.Proofs.Call.Turns
import UserDirectory.Proofs.Service.Nesting
/-!
# Every call is accounted for once

Calls that are executed in one world are calls that share its metrics and its log; so whatever happens to
them, the accounts are right.  What the log has of a session, with the times at which the counters were
put back, is told by these calls in the same order, and it is what the counters and the gauge show.

Main statements:
  * `Session.Told.step`, `Session.Runs.told`: executed calls are calls that share the metrics, and tell
    the same;
  * `Session.Told.exact`: so the counters and the gauge come to what the log has;
  * `calls_accounted`: every call is counted and noted once at its beginning and once at its end.
-/

namespace UserDirectory.Call

open UserDirectory.Telemetry (Note Recorded)

variable {ι ο σ α : Type}

/-! ## §1. What the log has of calls. -/

/-- What shows of calls in the log, and that the counters are put back. -/
inductive Entry
  /-- a line about the beginning or the end of a pass of a call, known by its place -/
  | line (caller : Nat) (method : String) (n : Note)
  | reset

namespace Entry

/-- The line, if there is one. -/
def note : Entry → Option Note
  | line _ _ n => some n
  | reset => none

/-- The line, if it is one about that call. -/
def noteOf (i : Nat) : Entry → Option Note
  | line caller _ n => if caller = i then some n else none
  | reset => none

/-- The passes that have ended since the counters were last put back, after one entry more. -/
def endedAfter (passes : List Recorded) : Entry → List Recorded
  | line _ method n => passes ++ (n.failure?.map (Recorded.mk method)).toList
  | reset => []

end Entry

/-- The lines about one call. -/
def linesOf (i : Nat) (entries : List Entry) : List Note := entries.filterMap (Entry.noteOf i)

/-- The passes that have ended since the counters were last put back. -/
def endedSince (entries : List Entry) : List Recorded := entries.foldl Entry.endedAfter []

/-- How many of the passes that begin in some lines do not end in them. -/
def openIn (lines : List Note) : Nat :=
  lines.countP (·.failure?.isNone) - lines.countP (·.failure?.isSome)

/-- What shows of a happening. -/
def Happening.entry : Happening → Option Entry
  | deed caller method d => d.told.map (.line caller method)
  | reset => some .reset

/-- The lines of a session are those that its calls have told. -/
theorem filterMap_note_entry (trace : List Happening) :
    (trace.filterMap Happening.entry).filterMap Entry.note = trace.filterMap Happening.told := by
  rw [List.filterMap_filterMap]
  refine List.filterMap_congr fun h _ => ?_
  cases h with
  | deed caller method d =>
    show (d.told.map (Entry.line caller method)).bind Entry.note = d.told
    cases d.told <;> rfl
  | reset => rfl

/-- So are the lines about each of them. -/
theorem linesOf_entry (i : Nat) (trace : List Happening) :
    linesOf i (trace.filterMap Happening.entry) = (deedsOf i trace).filterMap Deed.told := by
  unfold linesOf deedsOf
  rw [List.filterMap_filterMap, List.filterMap_filterMap]
  refine List.filterMap_congr fun h _ => ?_
  cases h with
  | deed caller method d =>
    show (d.told.map (Entry.line caller method)).bind (Entry.noteOf i)
      = (if caller = i then some d else none).bind Deed.told
    by_cases hcaller : caller = i
    · rw [if_pos hcaller]
      show _ = d.told
      cases d.told with
      | none => rfl
      | some n => exact if_pos hcaller
    · rw [if_neg hcaller]
      cases d.told with
      | none => rfl
      | some n => exact if_neg hcaller
  | reset => rfl

/-- What shows of the deeds of one call. -/
theorem filterMap_entry_deeds (i : Nat) (method : String) (deeds : List Deed) :
    (deeds.map (Happening.deed i method)).filterMap Happening.entry
      = (deeds.filterMap Deed.told).map (Entry.line i method) := by
  rw [List.filterMap_map, List.map_filterMap]
  rfl

theorem recordedSince_append_deeds (trace : List Happening) (i : Nat) (method : String)
    (deeds : List Deed) :
    recordedSince (trace ++ deeds.map (Happening.deed i method))
      = recordedSince trace ++ (deeds.filterMap Deed.recorded?).map (Recorded.mk method) := by
  induction deeds generalizing trace with
  | nil => simp
  | cons d deeds ih =>
    rw [List.map_cons, List.append_cons, ih, recordedSince_concat]
    cases d with
    | record millis failed => exact List.append_assoc _ [_] _
    | _ => rfl

theorem endedSince_append_lines (entries : List Entry) (i : Nat) (method : String)
    (lines : List Note) :
    endedSince (entries ++ lines.map (Entry.line i method))
      = endedSince entries ++ (lines.filterMap Note.failure?).map (Recorded.mk method) := by
  induction lines generalizing entries with
  | nil => simp
  | cons n lines ih =>
    rw [List.map_cons, List.append_cons, ih, List.filterMap_cons]
    unfold endedSince
    rw [List.foldl_append]
    show _ ++ (n.failure?.map (Recorded.mk method)).toList ++ _ = _
    rw [List.append_assoc]
    cases n.failure? <;> rfl

/-- The lines of a call leave open the passes that the call has begun and not ended. -/
theorem Balance.openIn_told {k : Nat} {deeds : List Deed} (h : Balance k deeds) :
    openIn (deeds.filterMap Deed.told) = unended deeds := by
  have hstarts : (deeds.filterMap Deed.told).countP (·.failure?.isNone)
      = deeds.countP Deed.isStartNote := by
    rw [List.countP_filterMap]
    refine List.countP_congr fun d _ => ?_
    cases d with
    | tell n => cases n <;> exact Iff.rfl
    | _ => exact Iff.rfl
  have hends : (deeds.filterMap Deed.told).countP (·.failure?.isSome)
      = deeds.countP Deed.isEndNote := by
    rw [List.countP_filterMap]
    refine List.countP_congr fun d _ => ?_
    cases d with
    | tell n => cases n <;> exact Iff.rfl
    | _ => exact Iff.rfl
  unfold openIn unended
  rw [hstarts, hends, h.starts, h.ends]

/-! ## §2. Sessions. -/

/-- A call that is made in a world, or what is left of it. -/
inductive Engagement : Type 1
  | live {ι ο σ α : Type} (e : Exchange ι ο σ α)
  /-- it has been dropped where it stood -/
  | dropped

/-- A world and the calls that have been made in it. -/
structure Session : Type 1 where
  world : World
  calls : List Engagement

/-- The lines about passes that have come to the log of a world since it was another. -/
def World.linesSince (w w' : World) : List Note := w'.passNotes.drop w.passNotes.length

theorem World.linesSince_of_eq {w w' : World} {lines : List Note}
    (h : w'.passNotes = w.passNotes ++ lines) : w.linesSince w' = lines := by
  unfold linesSince
  rw [h, List.drop_left]

namespace Session

/-- What can happen in a session, and what shows of it. -/
inductive Step (s : Session) : List Entry → Session → Prop
  /-- another call is made through the chain, of whatever kind and with whatever handler that ends what
  it begins -/
  | make {ι ο σ α : Type} (h : Handler ι ο σ α) (hproper : h.Proper) (manner : Manner)
      (hchained : manner ≠ .bare) (cancelAt : Option Nat) (inbound : Inbound ι) (context : Context)
      (tie : Tie) (cancelled : Bool) (capacity : Nat) (enough : Option Nat) (attentive : Bool) :
      Step s [] ⟨s.world, s.calls ++ [.live (.start manner cancelAt (.start h inbound
        { CallState.start context tie (.ofCapacity capacity ⟨enough, attentive, [], none⟩)
            s.world.clock with cancelled }))]⟩
  /-- one of the calls is let go on, or something happens on the side of its caller -/
  | move {ι ο σ α : Type} {i : Nat} {e e' : Exchange ι ο σ α} {w' : World}
      (hi : s.calls[i]? = some (.live e)) (h : Exchange.Move (e, s.world) (e', w')) :
      Step s ((s.world.linesSince w').map (.line i e.state.context.method))
        ⟨w', s.calls.set i (.live e')⟩
  | drop {ι ο σ α : Type} {i : Nat} {e : Exchange ι ο σ α} (hi : s.calls[i]? = some (.live e))
      (hrunning : e.hasEnded = false) :
      Step s ((s.world.linesSince (e.drop s.world).2).map (.line i e.state.context.method))
        ⟨(e.drop s.world).2, s.calls.set i .dropped⟩
  | reset : Step s [.reset] ⟨{ s.world with metrics := s.world.metrics.reset }, s.calls⟩
  /-- time goes by, or anything else happens that leaves alone the metrics and the lines about passes -/
  | elapse (w' : World) (hmetrics : w'.metrics = s.world.metrics)
      (hnotes : w'.passNotes = s.world.passNotes) : Step s [] ⟨w', s.calls⟩

/-- Any number of steps, and what shows of them. -/
inductive Runs (s : Session) : List Entry → Session → Prop
  | refl : Runs s [] s
  | step {entries shown : List Entry} {s' s'' : Session} (h : Runs s entries s')
      (hs : s'.Step shown s'') : Runs s (entries ++ shown) s''

end Session

/-- What a call is that is executed among those that share the metrics. -/
def Engagement.Shown : Engagement → Member → Prop
  | live e, m => ∃ l, m = ⟨e.state.context.method, l⟩ ∧ e.Shown l
  | dropped, m => m.life.spot = .dropped ∧ m.life.stance.owed = []

/-- A call that is executed owes nothing. -/
theorem Engagement.Shown.owed_eq {c : Engagement} {m : Member} (h : c.Shown m) :
    m.life.stance.owed = [] := by
  cases c with
  | live e =>
    obtain ⟨l, rfl, hl⟩ := h
    exact hl.state.2
  | dropped => exact h.2

/-- A session is a view of calls that share the metrics. -/
structure Session.Shows (s : Session) (x : Traffic) : Prop where
  metrics : s.world.metrics = x.metrics
  notes : s.world.passNotes = x.notes
  length_eq : x.calls.length = s.calls.length
  shown : ∀ (i : Nat) (c : Engagement) (m : Member), s.calls[i]? = some c → x.calls[i]? = some m →
    c.Shown m

/-- A session is a view of calls that share the metrics, and what shows of it they have told: the same
lines in the same order, the counters being put back in between at the same places. -/
structure Session.Told (s : Session) (entries : List Entry) (trace : List Happening) (x : Traffic) :
    Prop where
  runs : Traffic.empty.Runs trace x
  shows : s.Shows x
  entries_eq : trace.filterMap Happening.entry = entries
  /-- the passes are recorded as they are noted to have ended -/
  recorded_eq : recordedSince trace = endedSince entries

namespace Session

variable {s s' : Session} {x : Traffic} {entries shown : List Entry} {trace : List Happening}

/-- What one call does in a session it does among those that share the metrics. -/
theorem Shows.set (h : s.Shows x) {i : Nat} {method : String} {l l' : Life ι ο σ α}
    (hi : x.calls[i]? = some ⟨method, l⟩) {deeds : List Deed} {w' : World}
    (hmetrics : w'.metrics = deeds.foldl (Deed.count method) s.world.metrics)
    (hnotes : w'.passNotes = s.world.passNotes ++ deeds.filterMap Deed.told) {c : Engagement}
    (hc : c.Shown ⟨method, l'⟩) :
    Shows ⟨w', s.calls.set i c⟩ (x.after i deeds ⟨method, l'⟩) := by
  obtain ⟨hlt, _⟩ := List.getElem?_eq_some_iff.1 hi
  have hlt' : i < s.calls.length := h.length_eq ▸ hlt
  refine ⟨?_, ?_, ?_, fun j c' m hj hm => ?_⟩
  · exact hmetrics.trans (congrArg (deeds.foldl (Deed.count method)) h.metrics)
  · exact hnotes.trans (congrArg (· ++ _) h.notes)
  · show (x.calls.set i _).length = (s.calls.set i c).length
    rw [List.length_set, List.length_set, h.length_eq]
  · have hm' : (x.calls.set i ⟨method, l'⟩)[j]? = some m := hm
    by_cases hij : i = j
    · subst hij
      rw [List.getElem?_set_self hlt'] at hj
      rw [List.getElem?_set_self hlt] at hm'
      cases hj
      cases hm'
      exact hc
    · rw [List.getElem?_set_ne hij] at hj
      rw [List.getElem?_set_ne hij] at hm'
      exact h.shown j c' m hj hm'

/-- A call that is made stands last, among those that share the metrics as well. -/
theorem Shows.make (h : s.Shows x) {c : Engagement} {m : Member} (hc : c.Shown m) :
    Shows ⟨s.world, s.calls ++ [c]⟩ { x with calls := x.calls ++ [m] } := by
  refine ⟨h.metrics, h.notes, ?_, fun i c' m' hi hm => ?_⟩
  · simp [h.length_eq]
  · by_cases hlt : i < s.calls.length
    · rw [List.getElem?_append_left hlt] at hi
      rw [List.getElem?_append_left (h.length_eq ▸ hlt)] at hm
      exact h.shown i c' m' hi hm
    · rw [List.getElem?_append_right (by omega), List.getElem?_singleton] at hi
      rw [List.getElem?_append_right (by rw [h.length_eq]; omega), List.getElem?_singleton] at hm
      split at hi
      · rw [h.length_eq, if_pos (by assumption)] at hm
        cases hi
        cases hm
        exact hc
      · cases hi

/-- A call of a session has its place among those that share the metrics. -/
theorem Shows.get (h : s.Shows x) {i : Nat} {e : Exchange ι ο σ α}
    (hi : s.calls[i]? = some (.live e)) :
    ∃ l, x.calls[i]? = some ⟨e.state.context.method, l⟩ ∧ e.Shown l := by
  obtain ⟨hlt, _⟩ := List.getElem?_eq_some_iff.1 hi
  have hm := List.getElem?_eq_getElem (h.length_eq ▸ hlt : i < x.calls.length)
  obtain ⟨l, heq, hl⟩ := h.shown i _ _ hi hm
  exact ⟨l, hm.trans (congrArg some heq), hl⟩

/-- What shows of a call that goes on it has told. -/
theorem Told.set (h : s.Told entries trace x) {i : Nat} {method : String} {l l' : Life ι ο σ α}
    (hi : x.calls[i]? = some ⟨method, l⟩) (hfree : l.stance.owed = []) {deeds : List Deed}
    (hruns : l.Runs deeds l') {w' : World}
    (hmetrics : w'.metrics = deeds.foldl (Deed.count method) s.world.metrics)
    (hnotes : w'.passNotes = s.world.passNotes ++ deeds.filterMap Deed.told) {c : Engagement}
    (hc : c.Shown ⟨method, l'⟩) :
    ∃ trace' x', Told ⟨w', s.calls.set i c⟩
      (entries ++ (s.world.linesSince w').map (.line i method)) trace' x' := by
  have hafter := h.runs.trans (Traffic.runs_of_life hruns hi)
  refine ⟨_, _, hafter, h.shows.set hi hmetrics hnotes hc, ?_, ?_⟩
  · rw [List.filterMap_append, h.entries_eq, filterMap_entry_deeds, World.linesSince_of_eq hnotes]
  · -- the call owes nothing before and after, so what it has recorded it has also noted
    have hdone := (h.runs.accounted.booked i _ hi).recorded_eq
    have hall := (hruns.booked (h.runs.accounted.proper i _ hi)
      (h.runs.accounted.booked i _ hi)).recorded_eq
    rw [hfree, List.append_nil] at hdone
    rw [hc.owed_eq, List.append_nil, List.filterMap_append, List.filterMap_append, hdone] at hall
    have hnoted : deeds.filterMap Deed.ended?
        = (deeds.filterMap Deed.told).filterMap Note.failure? := List.filterMap_filterMap.symm
    rw [recordedSince_append_deeds, h.recorded_eq, List.append_cancel_left hall, hnoted,
      World.linesSince_of_eq hnotes, endedSince_append_lines]

/-- A step of a session is a number of steps of calls that share the metrics, and they tell the same. -/
theorem Told.step (h : s.Told entries trace x) (hs : s.Step shown s') :
    ∃ trace' x', s'.Told (entries ++ shown) trace' x' := by
  cases hs with
  | make handler hproper manner hchained cancelAt inbound context tie cancelled capacity enough
      attentive =>
    have hmade := h.runs.step (.make context.method handler hproper (decide (manner = .served))
      inbound (.ofCapacity capacity ⟨enough, attentive, [], none⟩))
    rw [Option.toList_none, List.append_nil] at hmade
    rw [List.append_nil]
    -- nothing has been told of the new call yet, which owes nothing
    have hshown := Exchange.shown_start handler hchained cancelAt inbound context tie cancelled
      (.ofCapacity capacity ⟨enough, attentive, [], none⟩) s.world.clock fun _ => rfl
    exact ⟨trace, _, hmade, h.shows.make ⟨_, rfl, hshown⟩, h.entries_eq, h.recorded_eq⟩
  | move hi hmove =>
    obtain ⟨l, hm, hl⟩ := h.shows.get hi
    obtain ⟨deeds, l', hruns, hleads, hl'⟩ := hmove.lives hl
    refine h.set hm hl.state.2 hruns hleads.metrics hleads.passNotes ⟨l', ?_, hl'⟩
    rw [hleads.context]
  | drop hi hrunning =>
    obtain ⟨l, hm, hl⟩ := h.shows.get hi
    obtain ⟨deeds, l', hruns, hleads, hspot, hfree⟩ := Exchange.drop_lives hl hrunning
    exact h.set hm hl.state.2 hruns hleads.metrics hleads.passNotes ⟨hspot, hfree⟩
  | reset =>
    -- both forget at this place what has been recorded before
    refine ⟨_, _, h.runs.step .reset, ⟨congrArg Telemetry.Metrics.reset h.shows.metrics, h.shows.notes,
      h.shows.length_eq, h.shows.shown⟩, ?_, ?_⟩
    · rw [List.filterMap_append, h.entries_eq]
      rfl
    · rw [Option.toList_some, recordedSince_concat]
      unfold endedSince
      rw [List.foldl_append]
      rfl
  | elapse w' hmetrics hnotes =>
    rw [List.append_nil]
    exact ⟨trace, x, h.runs, ⟨hmetrics.trans h.shows.metrics, hnotes.trans h.shows.notes,
      h.shows.length_eq, h.shows.shown⟩, h.entries_eq, h.recorded_eq⟩

/-- Before the first call. -/
theorem told_nil {w : World} (hmetrics : w.metrics = .zero) (hnotes : w.passNotes = []) :
    Told ⟨w, []⟩ [] [] Traffic.empty :=
  ⟨.refl, ⟨hmetrics, hnotes, rfl, fun _ _ _ hi _ => by cases hi⟩, rfl, rfl⟩

/-- Whatever happens in a session is a run of calls that share the metrics, and they tell the same. -/
theorem Runs.told {w : World} (hmetrics : w.metrics = .zero) (hnotes : w.passNotes = [])
    (h : Runs ⟨w, []⟩ entries s) : ∃ trace x, s.Told entries trace x := by
  induction h with
  | refl => exact ⟨[], _, told_nil hmetrics hnotes⟩
  | step _ hstep ih =>
    obtain ⟨trace, x, htold⟩ := ih
    exact htold.step hstep

end Session

/-! ## §3. What the log has is exact. -/

/-- Some lines are those of one pass around others, which has ended so. -/
def OnePass (e : PassEnd) (lines : List Note) : Prop :=
  ∃ inner millis, Passes inner ∧
    lines = .callStarted :: inner.filterMap Deed.told ++ [e.note millis]

/-- Some lines are those of a call that has come so far: none before it has begun; from its beginning on,
those of as many passes as are open, each inside of the one before; and in the end, as it ended, those of
one pass around all others. -/
def Phase.Noted : Phase ι ο σ α → List Note → Prop
  | fresh _, lines => lines = []
  | running c, lines => ∃ k inner, Layers k inner ∧ c.state.passes.length = k + 1 ∧
      lines = .callStarted :: inner.filterMap Deed.told
  | ended r _, lines => OnePass (.ofResult r) lines

/-- Some lines are those that belong to a call of a session. -/
def Engagement.Noted : Engagement → List Note → Prop
  | live e, lines => e.phase.Noted lines
  | dropped, lines => lines = [] ∨ OnePass .abandoned lines

/-- What shows of a session is exact. -/
structure Session.Exact (s : Session) (entries : List Entry) : Prop where
  /-- the log has these lines and no others -/
  notes : s.world.passNotes = entries.filterMap Entry.note
  /-- the counters show how many passes have ended since they were last put back -/
  tallies : s.world.metrics.Tallies (endedSince entries)
  /-- the gauge shows how many have begun and not ended -/
  inFlight : s.world.metrics.inFlight
    = ∑ i ∈ Finset.range s.calls.length, (openIn (linesOf i entries) : Int)
  /-- the log has of every call what belongs to it -/
  noted : ∀ (i : Nat) (c : Engagement), s.calls[i]? = some c → c.Noted (linesOf i entries)

/-- The books of a call that owes nothing say which lines are about it. -/
theorem Engagement.Shown.noted {c : Engagement} {m : Member} (h : c.Shown m) {deeds : List Deed}
    (hbooked : m.life.Booked deeds) : c.Noted (deeds.filterMap Deed.told) := by
  have hfree := h.owed_eq
  -- a call that has begun and ended is one pass
  have hpass : ∀ e, m.life.stance.Closed deeds e → OnePass e (deeds.filterMap Deed.told) := by
    rintro e ⟨_, inner, millis, hinner, hdeeds⟩
    rw [hfree, List.append_nil] at hdeeds
    refine ⟨inner, millis, hinner, ?_⟩
    rw [hdeeds, List.filterMap_append, List.filterMap_append, Deed.told_closing]
    rfl
  unfold Life.Booked at hbooked
  cases c with
  | dropped =>
    rw [h.1] at hbooked
    refine hbooked.imp (fun hnone => ?_) (hpass _)
    have hdeeds := hnone.2
    rw [hfree, List.append_nil] at hdeeds
    rw [hdeeds]
    rfl
  | live e =>
    obtain ⟨l, rfl, hl⟩ := h
    obtain ⟨manner, cancelAt, entered, phase⟩ := e
    cases phase with
    | fresh c =>
      have hspot : l.spot = .fresh := hl.phase.2.2
      rw [hspot] at hbooked
      have hdeeds := hbooked.2
      rw [hfree, List.append_nil] at hdeeds
      rw [hdeeds]
      exact rfl
    | running c =>
      have hspot : l.spot = .going c.stage := hl.phase.2.1
      rw [hspot] at hbooked
      obtain ⟨k, ⟨hdepth, inner, hinner, hdeeds⟩, _⟩ := hbooked
      rw [hfree, List.append_nil] at hdeeds
      refine ⟨k, inner, hinner, hl.state.1.depth.symm.trans hdepth, ?_⟩
      rw [hdeeds, List.filterMap_append]
      rfl
    | ended r s =>
      have hspot : l.spot = .ended r none := hl.phase.2.2
      rw [hspot] at hbooked
      exact hpass _ hbooked

/-- What is told by calls whose accounts are right is exact. -/
theorem Session.Told.exact {s : Session} {entries : List Entry} {trace : List Happening} {x : Traffic}
    (h : s.Told entries trace x) : s.Exact entries := by
  have haccounted := h.runs.accounted
  have hlines : ∀ i, linesOf i entries = (deedsOf i trace).filterMap Deed.told := fun i => by
    rw [← h.entries_eq, linesOf_entry]
  -- what is told of one call
  have hcall : ∀ (i : Nat) (c : Engagement), s.calls[i]? = some c →
      ∃ m : Member, c.Shown m ∧ m.life.Booked (deedsOf i trace) := by
    intro i c hi
    obtain ⟨hlt, _⟩ := List.getElem?_eq_some_iff.1 hi
    have hm := List.getElem?_eq_getElem (h.shows.length_eq.symm ▸ hlt : i < x.calls.length)
    exact ⟨_, h.shows.shown i c _ hi hm, haccounted.booked i _ hm⟩
  refine ⟨?_, ?_, ?_, fun i c hi => ?_⟩
  · rw [h.shows.notes, haccounted.notes, ← h.entries_eq, filterMap_note_entry]
  · rw [h.shows.metrics, ← h.recorded_eq]
    exact haccounted.tallies
  · rw [h.shows.metrics, haccounted.inFlight, h.shows.length_eq]
    refine Finset.sum_congr rfl fun i hi => ?_
    obtain ⟨m, hshown, hbooked⟩ :=
      hcall i _ (List.getElem?_eq_getElem (Finset.mem_range.1 hi))
    have hbalance := hbooked.balance
    rw [hshown.owed_eq, List.append_nil] at hbalance
    rw [hlines, hbalance.openIn_told]
  · obtain ⟨m, hshown, hbooked⟩ := hcall i c hi
    rw [hlines]
    exact hshown.noted hbooked

/-! ## §4. Every call. -/

/-- A call that owes nothing has done what belongs to it: nothing before it has begun; from its beginning
to its end, as it ended, one pass around all others; and whenever its handler works, as many beginnings
without an end as passes are open. -/
structure Life.Account (l : Life ι ο σ α) (deeds : List Deed) : Prop where
  fresh : l.spot = .fresh → deeds = []
  ended : ∀ r unsent, l.spot = .ended r unsent →
    ∃ inner millis, Passes inner ∧
      deeds = Deed.opening ++ inner ++ Deed.closing millis (.ofResult r)
  dropped : l.spot = .dropped →
    deeds = [] ∨ ∃ inner millis, Passes inner ∧
      deeds = Deed.opening ++ inner ++ Deed.closing millis .abandoned
  balance : Balance l.stance.depth deeds
  depth_pos_iff : 0 < l.stance.depth ↔ ∃ stage, l.spot = .going stage

theorem Life.Booked.account {l : Life ι ο σ α} {deeds : List Deed} (h : l.Booked deeds)
    (hfree : l.stance.owed = []) : l.Account deeds := by
  have hbalance := h.balance
  rw [hfree, List.append_nil] at hbalance
  -- a call that has begun and ended is one pass
  have hpass : ∀ e, l.stance.Closed deeds e → ∃ inner millis, Passes inner ∧
      deeds = Deed.opening ++ inner ++ Deed.closing millis e := by
    rintro e ⟨_, inner, millis, hinner, hdeeds⟩
    rw [hfree, List.append_nil] at hdeeds
    exact ⟨inner, millis, hinner, hdeeds⟩
  have hdepth : 0 < l.stance.depth ↔ ∃ stage, l.spot = .going stage := by
    unfold Life.Booked at h
    cases hspot : l.spot with
    | fresh =>
      rw [hspot] at h
      exact ⟨fun hpos => absurd h.1 (by omega), nofun⟩
    | going stage =>
      rw [hspot] at h
      obtain ⟨k, ⟨hk, _⟩, _⟩ := h
      exact ⟨fun _ => ⟨stage, rfl⟩, fun _ => by omega⟩
    | ended r unsent =>
      rw [hspot] at h
      exact ⟨fun hpos => absurd h.1 (by omega), nofun⟩
    | dropped =>
      rw [hspot] at h
      exact ⟨fun hpos => h.elim (fun h => absurd h.1 (by omega)) fun h => absurd h.1 (by omega),
        nofun⟩
  unfold Life.Booked at h
  refine ⟨fun hspot => ?_, fun r unsent hspot => ?_, fun hspot => ?_, hbalance, hdepth⟩
  · rw [hspot] at h
    have hnone := h.2
    rwa [hfree, List.append_nil] at hnone
  · rw [hspot] at h
    exact hpass _ h
  · rw [hspot] at h
    refine h.imp (fun h => ?_) (hpass _)
    have hnone := h.2
    rwa [hfree, List.append_nil] at hnone

/-- Every call is accounted for exactly once, in whatever way it ends and whatever comes in between; and
so is every call that is executed: what shows of a session is exact, and it is what calls that share the
metrics have told. -/
theorem calls_accounted :
    (∀ (trace : List Happening) (x : Traffic), Traffic.empty.Runs trace x →
      x.Accounted trace ∧ ∀ (i : Nat) (m : Member), x.calls[i]? = some m →
        m.life.stance.owed = [] → m.life.Account (deedsOf i trace))
    ∧ ∀ (w : World) (s : Session) (entries : List Entry), w.metrics = .zero → w.passNotes = [] →
      Session.Runs ⟨w, []⟩ entries s →
      s.Exact entries ∧ ∃ trace x, s.Told entries trace x := by
  refine ⟨fun trace x hruns => ?_, fun w s entries hmetrics hnotes hruns => ?_⟩
  · have hall := hruns.accounted
    exact ⟨hall, fun i m hi hfree => (hall.booked i m hi).account hfree⟩
  · obtain ⟨trace, x, htold⟩ := hruns.told hmetrics hnotes
    exact ⟨htold.exact, trace, x, htold⟩

/-- One call is completed, the counters are put back, and another call is dropped while it waits. -/
theorem calls_accounted_one_dropped :
    ∃ s entries, Session.Runs ⟨.start .epoch none .empty, []⟩ entries s
      ∧ s.world.metrics.totalCalls = 1 ∧ s.world.metrics.totalErrors = 1
      ∧ s.world.metrics.inFlight = 0
      ∧ (linesOf 0 entries).map Telemetry.Note.message = ["Call started", "Call completed"]
      ∧ (linesOf 1 entries).map Telemetry.Note.message = ["Call started", "Call abandoned by caller"]
      ∧ (endedSince entries).map (fun r => (r.method, r.failed)) = [("b", true)]
      ∧ s.Exact entries
      ∧ ∃ trace x, s.Told entries trace x ∧ x.Accounted trace := by
  have hquick : (Handler.ofAction (pure ()) : Handler Unit Unit Unit Unit).Proper :=
    Handler.proper_ofAction (Action.flat_pure ())
  have hslow : (Handler.ofAction (Action.ofProgram (.pause 1000 (.done ()))) :
      Handler Unit Unit Unit Unit).Proper := Handler.proper_ofAction rfl
  have hruns := (((((Session.Runs.refl (s := ⟨.start .epoch none .empty, []⟩)).step
    (.make _ hquick .chained nofun none .empty (.start "a" .unary none) .nothing false 1 none
      true)).step (.move (i := 0) rfl (.work _ _))).step .reset).step
    (.make _ hslow .chained nofun none .empty (.start "b" .unary none) .nothing false 1 none
      true)).step (.move (i := 1) rfl (.work _ _))
  have hdrop := hruns.step (.drop (i := 1) rfl rfl)
  refine ⟨_, _, hdrop, by decide +kernel, by decide +kernel, by decide +kernel, by decide +kernel,
    by decide +kernel, by decide +kernel, ?_⟩
  have hall := calls_accounted.2 (.start .epoch none .empty) _ _ rfl rfl hdrop
  exact ⟨hall.1, hall.2.imp fun trace h => h.imp fun x htold =>
    ⟨htold, (calls_accounted.1 trace x htold.runs).1⟩⟩

end UserDirectory.Call
