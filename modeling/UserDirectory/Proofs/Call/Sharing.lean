import UserDirectory.Proofs.Call.Answering
import UserDirectory.Proofs.Store.Upkeep
/-!
# Calls that share their store

While a call goes on, others may use its store as they like; what the call is told then is what holds
at the moment at which it asks.  A call that is made through the server tells its caller how it ended:
whoever reads to the end has read every response and, if the call has failed, one status after them.

A handler that does one thing is followed along the tree of what it asks, with what it has asked of the
clock and the store so far and what has been accepted of it, and whether it has been kept from going on.

Main statements:
  * `Life.Step.candid`, `Life.Candid.received`: what is read by whoever reads to the end;
  * `Program.Yields.act`, `Program.yields_bind`: what a program has asked and sent;
  * `Alone.RunsAmong.moment`: what is asked is answered by the table of one moment;
  * `Alone.Stands.step`, `Alone.Keeps.runs`: what a call among others has asked and sent;
  * `Alone.Shows.goesAmong`: calls that are executed among others are such calls.
-/

namespace UserDirectory.Call

open UserDirectory.Service (ServiceError)
open UserDirectory.Store (Operation Table)
open UserDirectory.Time (Instant)

variable {ι ο σ α β : Type}

/-! ## §1. The end of the responses. -/

/-- What is sent after all responses: the status of a failure. -/
def lastWord (r : Except ServiceError α) : List (Response ο) :=
  match r with
  | .ok _ => []
  | .error cause => [.error cause.status]

/-- A call that has failed and has nothing to send any more has sent why, to a caller who is there or has
read everything. -/
structure Life.Candid (l : Life ι ο σ α) : Prop where
  waiting : ∀ cause, l.spot = .ended (.error cause) none → l.stance.outbound.reader.ending = none →
    l.stance.outbound.reader.received ++ l.stance.outbound.waiting
      = l.stance.accepted.map .ok ++ [.error cause.status]
  closed : ∀ cause, l.spot = .ended (.error cause) none →
    l.stance.outbound.reader.ending = some .closed →
    l.stance.outbound.reader.received = l.stance.accepted.map .ok ++ [.error cause.status]

section

variable {l l' : Life ι ο σ α} {label : Option Deed}

/-- A call that has not ended, or has not sent everything, is candid. -/
theorem Life.candid_of_unsent (h : ∀ cause, l.spot ≠ .ended (.error cause) none) : l.Candid :=
  ⟨fun cause hspot => absurd hspot (h cause), fun cause hspot => absurd hspot (h cause)⟩

/-- A call of the server that ends with a failure still has to send it. -/
theorem Life.candid_conclude (hserved : l.served = true) (g : Stance ο) (r : Except ServiceError α) :
    (l.conclude g r).Candid := by
  refine Life.candid_of_unsent fun cause hspot => ?_
  unfold Life.conclude at hspot
  rw [hserved] at hspot
  cases hspot

/-- A step of a call of the server leaves it candid. -/
theorem Life.Step.candid (hstep : l.Step label l') (hserved : l.served = true) (hd : l.Delivered)
    (h : l.Candid) : l'.Candid := by
  cases hstep with
  | pay howed => exact ⟨h.waiting, h.closed⟩
  | drift hdrift =>
    refine ⟨fun cause hspot hopen => ?_, fun cause hspot hclosed => ?_⟩
    · cases hdrift with
      | @read first rest hthere hwaiting =>
        have hall := h.waiting cause hspot hopen
        rw [hwaiting] at hall
        show l.stance.outbound.reader.received ++ [first] ++ rest = _
        rw [List.append_assoc]
        exact hall
      | depart how hthere hhow =>
        cases (Outbound.ending_leave hthere how).symm.trans hopen
      | cancel hstill => exact h.waiting cause hspot hopen
    · have hbefore := hdrift.closed hclosed
      cases hdrift with
      | read hthere hwaiting =>
        cases (Outbound.readerGone_eq_false_iff.1 hthere).symm.trans hbefore
      | depart how hthere hhow =>
        cases (Outbound.readerGone_eq_false_iff.1 hthere).symm.trans hbefore
      | cancel hstill => exact h.closed cause hspot hbefore
  | deny hfree hspot cause millis => exact Life.candid_conclude hserved _ _
  | breakOff hfree hspot hwhy millis => exact Life.candid_conclude hserved _ _
  | stopTaking hfree hspot hcancelled millis => exact Life.candid_conclude hserved _ _
  | failed hfree hspot millis => exact Life.candid_conclude hserved _ _
  | finish hfree hspot millis => exact Life.candid_conclude hserved _ _
  | cut hfree hspot hcancelled times htimes millis => exact Life.candid_conclude hserved _ _
  | @tellFailure r cause hfree hspot hthere =>
    have hnone := Outbound.readerGone_eq_false_iff.1 hthere
    refine ⟨fun e he _ => ?_, fun e he hclosed => by cases hnone.symm.trans hclosed⟩
    cases he
    -- nothing has been told before, and now it has
    obtain ⟨told, horder, htold⟩ := hd.order
    rw [hspot] at htold
    obtain ⟨rfl, rfl⟩ := htold
    have hall := horder.waiting_of_there hthere
    rw [List.append_nil] at hall
    show l.stance.outbound.reader.received ++ (l.stance.outbound.waiting ++ _) = _
    rw [← List.append_assoc, hall]
  | @tellNobody r cause hfree hspot hgone =>
    refine ⟨fun e he hopen => ?_, fun e he hclosed => ?_⟩
    · have hthere := Outbound.readerGone_eq_false_iff.2 hopen
      cases hgone.symm.trans hthere
    · -- whoever has read to the end has not done so before everything was sent
      obtain ⟨r', hended⟩ := hd.shut hclosed
      cases hspot.symm.trans hended
  | @shut r hfree hspot hthere hread =>
    have hnone := Outbound.readerGone_eq_false_iff.1 hthere
    refine ⟨fun e he hopen => ?_, fun e he _ => ?_⟩
    · cases (Outbound.ending_leave hthere .closed).symm.trans hopen
    · have hall := h.waiting e he hnone
      rw [hread, List.append_nil] at hall
      exact hall
  | _ => exact Life.candid_of_unsent fun cause hspot => by cases hspot

/-- Whoever has read to the end of a call has read every response and the status of its failure. -/
theorem Life.Candid.received (h : l.Candid) (hd : l.Delivered)
    (hclosed : l.stance.outbound.reader.ending = some .closed) :
    ∃ r, l.spot = .ended r none
      ∧ l.stance.outbound.reader.received = l.stance.accepted.map .ok ++ lastWord r := by
  obtain ⟨r, hspot⟩ := hd.shut hclosed
  refine ⟨r, hspot, ?_⟩
  cases r with
  | ok a =>
    rw [hd.received hspot hclosed]
    exact (List.append_nil _).symm
  | error cause => exact h.closed cause hspot hclosed

end

/-- At most one thing is told of a failure. -/
theorem Spot.Tells.length_le {spot : Spot ο σ α} {told : List (Response ο)} (h : spot.Tells told) :
    told.length ≤ 1 := by
  rcases h.cases_told with rfl | ⟨status, rfl⟩
  · exact Nat.zero_le 1
  · exact Nat.le_refl 1

/-- Nothing is read after a status. -/
theorem Life.Delivered.eq_nil_of_error {l : Life ι ο σ α} (h : l.Delivered)
    {before after : List (Response ο)} {status : Service.Status}
    (hread : l.stance.outbound.reader.received = before ++ .error status :: after) : after = [] := by
  obtain ⟨told, horder, htold⟩ := h.order
  have hlength := htold.length_le
  obtain ⟨rest, hrest⟩ := horder.read
  rw [hread, List.append_assoc, List.cons_append] at hrest
  -- the status is none of the responses, so it is the one thing that is told
  rcases List.append_eq_append_iff.1 hrest with ⟨mid, haccepted, hmid⟩ | ⟨mid, _, hmid⟩
  · cases mid with
    | nil =>
      rw [List.nil_append] at hmid
      rw [← hmid, List.length_cons, List.length_append] at hlength
      exact List.eq_nil_of_length_eq_zero (by omega)
    | cons first more =>
      have hmem : first ∈ l.stance.accepted.map (Except.ok : ο → Response ο) := by
        rw [haccepted]
        exact List.mem_append_right _ List.mem_cons_self
      obtain ⟨item, _, rfl⟩ := List.mem_map.1 hmem
      cases hmid
  · rw [hmid, List.length_append, List.length_cons, List.length_append] at hlength
    exact List.eq_nil_of_length_eq_zero (by omega)

/-! ## §2. What a program asks and sends. -/

/-- What a call has asked, and what it has been told. -/
inductive Asked
  /-- the clock has been read -/
  | clock (now : Instant)
  /-- the store has done something, at a reading of the clock -/
  | store (now : Instant) (x : Transaction)

/-- What the clock has shown when something was asked. -/
def Asked.reading : Asked → Instant
  | clock now => now
  | store now _ => now

/-- What has been asked by a deed, if something has. -/
def Deed.asked : Deed → Option Asked
  | read now => some (.clock now)
  | transact now x => some (.store now x)
  | _ => none

theorem Deed.asked_eq_none {d : Deed} (h : d.reading = none) : d.asked = none := by
  cases d with
  | read now => cases h
  | transact now x => cases h
  | _ => rfl

/-- The readings are those of what has been asked. -/
theorem map_reading_asked (deeds : List Deed) :
    (deeds.filterMap Deed.asked).map Asked.reading = deeds.filterMap Deed.reading := by
  rw [List.map_filterMap]
  refine congrArg (deeds.filterMap ·) (funext fun d => ?_)
  cases d <;> rfl

section

variable {J : List Asked → List ο → Prop} {Q : Bool → List Asked → List ο → α → Prop}
  {hindered : Bool} {trace : List Asked} {accepted : List ο}

variable (J Q) in
/-- A program that has asked `trace` so far and of which `accepted` has been accepted: at any point
`J` holds of the two, and at its end `Q`.  What cannot go on because the call is cancelled or its caller
has left is hindered from there on. -/
def Program.Yields : Program ο α → Bool → List Asked → List ο → Prop
  | .done a, b, trace, accepted => J trace accepted ∧ Q b trace accepted a
  | .store op next, b, trace, accepted =>
    J trace accepted ∧ ∀ now r, (next r).Yields b (trace ++ [.store now ⟨op, r⟩]) accepted
  | .send item next, b, trace, accepted =>
    J trace accepted ∧ (next true).Yields b trace (accepted ++ [item])
      ∧ (next false).Yields true trace accepted
  | .live next, b, trace, accepted =>
    J trace accepted ∧ (next true).Yields b trace accepted ∧ (next false).Yields true trace accepted
  | .clock next, b, trace, accepted =>
    J trace accepted ∧ ∀ now, (next now).Yields b (trace ++ [.clock now]) accepted
  | .note _ next, b, trace, accepted => J trace accepted ∧ next.Yields b trace accepted
  | .pause _ next, b, trace, accepted => J trace accepted ∧ next.Yields b trace accepted
  | .cancel next, _, trace, accepted => J trace accepted ∧ next.Yields true trace accepted
  | .claims next, b, trace, accepted => J trace accepted ∧ ∀ c, (next c).Yields b trace accepted
  | .enter next, b, trace, accepted => J trace accepted ∧ ∀ r, (next r).Yields b trace accepted
  | .leave _ next, b, trace, accepted => J trace accepted ∧ next.Yields b trace accepted

namespace Program

theorem Yields.holds {p : Program ο α} (h : p.Yields J Q hindered trace accepted) :
    J trace accepted := by
  cases p <;> exact h.1

/-- Of two programs one after another, the second goes on with what the first has asked and sent. -/
theorem yields_bind {R : Bool → List Asked → List ο → β → Prop} {p : Program ο β}
    {f : β → Program ο α} (h : p.Yields J R hindered trace accepted)
    (hf : ∀ b trace accepted a, R b trace accepted a → (f a).Yields J Q b trace accepted) :
    (p.bind f).Yields J Q hindered trace accepted := by
  induction p generalizing hindered trace accepted with
  | done a => exact hf _ _ _ _ h.2
  | store op next ih => exact ⟨h.1, fun now r => ih r (h.2 now r)⟩
  | send item next ih => exact ⟨h.1, ih true h.2.1, ih false h.2.2⟩
  | live next ih => exact ⟨h.1, ih true h.2.1, ih false h.2.2⟩
  | clock next ih => exact ⟨h.1, fun now => ih now (h.2 now)⟩
  | note n next ih => exact ⟨h.1, ih h.2⟩
  | pause ms next ih => exact ⟨h.1, ih h.2⟩
  | cancel next ih => exact ⟨h.1, ih h.2⟩
  | claims next ih => exact ⟨h.1, fun c => ih c (h.2 c)⟩
  | enter next ih => exact ⟨h.1, fun r => ih r (h.2 r)⟩
  | leave failure next ih => exact ⟨h.1, ih h.2⟩

/-- A step asks and sends what is foreseen; whoever is hindered is so because of the call. -/
theorem Yields.act {p p' : Program ο α} {g g' : Stance ο} {label : Option Deed}
    (h : p.Yields J Q hindered trace g.accepted) (hb : hindered = true → g.Hindered)
    (hopen : g.outbound.reader.ending ≠ some .closed) (hact : p.Act g label g' p') :
    ∃ b, p'.Yields J Q b (trace ++ (label.bind Deed.asked).toList) g'.accepted
      ∧ (b = true → g'.Hindered) := by
  have hsame : ∀ {label : Option Deed}, label.bind Deed.asked = none →
      trace ++ (label.bind Deed.asked).toList = trace := by
    intro label hnone
    rw [hnone]
    exact List.append_nil _
  cases hact with
  | store op next now r => exact ⟨hindered, h.2 now r, hb⟩
  | send item next hthere hroom =>
    rw [hsame rfl]
    exact ⟨hindered, h.2.1, hb⟩
  | sendGone item next hgone =>
    rw [hsame rfl]
    obtain ⟨how, hhow⟩ := Option.isSome_iff_exists.1 hgone
    refine ⟨true, h.2.2, fun _ => .inr ⟨how, hhow, ?_⟩⟩
    rintro rfl
    exact hopen hhow
  | live next alive halive =>
    rw [hsame rfl]
    cases alive with
    | true => exact ⟨hindered, h.2.1, hb⟩
    | false => exact ⟨true, h.2.2, fun _ => .inl (halive rfl)⟩
  | clock next now => exact ⟨hindered, h.2 now, hb⟩
  | note n next =>
    rw [hsame rfl]
    exact ⟨hindered, h.2, hb⟩
  | pause ms next =>
    rw [hsame rfl]
    exact ⟨hindered, h.2, hb⟩
  | cancel next =>
    rw [hsame rfl]
    exact ⟨true, h.2, fun _ => .inl rfl⟩
  | claims next c =>
    rw [hsame rfl]
    exact ⟨hindered, h.2 c, hb⟩
  | enter next =>
    rw [hsame rfl]
    exact ⟨hindered, h.2 none, fun hb' => g.begin_alike.hindered (hb hb')⟩
  | enterDenied next cause millis =>
    rw [hsame rfl]
    have ha := g.begin_alike.trans (g.begin.close_alike millis (.failed cause))
    exact ⟨hindered, ha.accepted.symm ▸ h.2 (some cause), fun hb' => ha.hindered (hb hb')⟩
  | leave failure next millis =>
    rw [hsame rfl]
    have ha := g.close_alike millis (.ofFailure failure)
    exact ⟨hindered, ha.accepted.symm ▸ h.2, fun hb' => ha.hindered (hb hb')⟩

end Program

end

/-- Whoever is hindered stays so, whatever befalls the call. -/
theorem Stance.Drift.hindered {g g' : Stance ο} (hdrift : g.Drift g') (h : g.Hindered) :
    g'.Hindered := by
  cases hdrift with
  | read hthere hwaiting => exact h
  | depart how hthere hhow => exact .inr ⟨how, Outbound.ending_leave hthere how, hhow⟩
  | cancel hstill => exact .inl rfl

/-! ## §3. Calls among others. -/

namespace Alone

/-- The call does a step, or others have the store do something; and what the call has asked if it has
asked something. -/
inductive StepAmong (s : Alone ι ο σ α) : Option Asked → Alone ι ο σ α → Prop
  | own {label : Option Deed} {l : Life ι ο σ α} {t : Table} (h : s.life.Step label l)
      (ht : Answers s.table label.toList t) : StepAmong s (label.bind Deed.asked) ⟨l, t⟩
  | others (now : Instant) (op : Operation) :
      StepAmong s none ⟨s.life, (s.table.perform now op).2⟩

/-- Any number of steps, and what the call has asked on the way. -/
inductive RunsAmong (s : Alone ι ο σ α) : List Asked → Alone ι ο σ α → Prop
  | refl : RunsAmong s [] s
  | step {trace : List Asked} {s' s'' : Alone ι ο σ α} {x : Option Asked}
      (h : RunsAmong s trace s') (hs : s'.StepAmong x s'') : RunsAmong s (trace ++ x.toList) s''

section

variable {s s' s'' : Alone ι ο σ α} {trace trace' : List Asked}

theorem RunsAmong.trans (h : s.RunsAmong trace s') (h' : s'.RunsAmong trace' s'') :
    s.RunsAmong (trace ++ trace') s'' := by
  induction h' with
  | refl =>
    rw [List.append_nil]
    exact h
  | step _ hstep ih =>
    rw [← List.append_assoc]
    exact .step ih hstep

/-- What is asked of the store is answered by the table as it is then. -/
theorem StepAmong.answered {now : Instant} {x : Transaction} (h : s.StepAmong (some (.store now x)) s') :
    x.outcome = (s.table.perform now x.operation).1 := by
  generalize hx : some (Asked.store now x) = y at h
  cases h with
  | @own label l t hlife ht =>
    cases label with
    | none => cases hx
    | some d =>
      cases d with
      | transact now y =>
        cases hx
        exact ht.1
      | _ => cases hx
  | others now op => cases hx

/-- What has been asked last of the store was asked at one moment, after all that was asked before. -/
theorem RunsAmong.moment {before : List Asked} {now : Instant} {x : Transaction}
    (h : s.RunsAmong trace s') (htrace : trace = before ++ [.store now x]) :
    ∃ s₁, s.RunsAmong before s₁ ∧ s₁.RunsAmong [.store now x] s'
      ∧ x.outcome = (s₁.table.perform now x.operation).1 := by
  induction h with
  | refl => simp at htrace
  | @step trace s₁ s₂ y hrun hstep ih =>
    cases y with
    | none =>
      rw [Option.toList_none, List.append_nil] at htrace
      obtain ⟨s₀, hbefore, hafter, hout⟩ := ih htrace
      exact ⟨s₀, hbefore, hafter.step hstep, hout⟩
    | some y =>
      -- it is the last step
      obtain ⟨rfl, hy⟩ := List.append_inj' htrace rfl
      cases hy
      exact ⟨s₁, hrun, RunsAmong.refl.step hstep, hstep.answered⟩

theorem reachable_of_answers {t t' : Table} {deeds : List Deed} (h : Answers t deeds t')
    (ht : t.Reachable) : t'.Reachable := by
  induction deeds generalizing t with
  | nil => exact h ▸ ht
  | cons d more ih =>
    cases d with
    | transact now x => exact ih h.2 (ht.perform now x.operation)
    | _ => exact ih h ht

/-- The table is at any time one that a store can come to. -/
theorem RunsAmong.reachable (h : s.RunsAmong trace s') (ht : s.table.Reachable) : s'.table.Reachable := by
  induction h with
  | refl => exact ht
  | step _ hstep ih =>
    cases hstep with
    | own hlife hanswers => exact reachable_of_answers hanswers ih
    | others now op => exact ih.perform now op

end

/-! ## §4. Calls that do one thing. -/

/-- Where the handler of a call stands that does one thing. -/
inductive Stands (J : List Asked → List ο → Prop)
    (Q : Bool → List Asked → List ο → Except ServiceError α → Prop)
    (trace : List Asked) (l : Life ι ο Unit α) : Spot ο Unit α → Prop
  | fresh (htrace : trace = []) (haccepted : l.stance.accepted = []) (hout : l.admitted = false) :
      Stands J Q trace l .fresh
  | closing {p : Program ο (Except ServiceError α)} {b : Bool} (hb : b = true → l.stance.Hindered)
      (h : p.Yields J Q b trace l.stance.accepted) : Stands J Q trace l (.going (.closing p))
  | ended {r : Except ServiceError α} {b : Bool} {unsent : Option Service.Status}
      (hb : b = true → l.stance.Hindered) (h : Q b trace l.stance.accepted r) :
      Stands J Q trace l (.ended r unsent)
  /-- the chain has not let it through -/
  | rejected {cause : ServiceError} {unsent : Option Service.Status} (htrace : trace = [])
      (haccepted : l.stance.accepted = []) (hout : l.admitted = false) :
      Stands J Q trace l (.ended (.error cause) unsent)
  /-- the chain has ended it where it stood -/
  | cut {unsent : Option Service.Status} (hcancelled : l.stance.cancelled = true)
      (h : J trace l.stance.accepted) : Stands J Q trace l (.ended (.error .cancelled) unsent)
  | dropped : Stands J Q trace l .dropped

section

variable {J : List Asked → List ο → Prop}
  {Q : Bool → List Asked → List ο → Except ServiceError α → Prop}
  {trace : List Asked} {l l' : Life ι ο Unit α} {spot : Spot ο Unit α}

/-- Where a handler stands is not changed by what is paid, by what is read, or by being hindered. -/
theorem Stands.of_hindered (h : Stands J Q trace l spot) (hadmitted : l'.admitted = l.admitted)
    (haccepted : l'.stance.accepted = l.stance.accepted)
    (hhindered : l.stance.Hindered → l'.stance.Hindered)
    (hcancelled : l.stance.cancelled = true → l'.stance.cancelled = true) :
    Stands J Q trace l' spot := by
  cases h with
  | fresh htrace hacc hout => exact .fresh htrace (haccepted.trans hacc) (hadmitted.trans hout)
  | closing hb h => exact .closing (fun hb' => hhindered (hb hb')) (haccepted ▸ h)
  | ended hb h => exact .ended (fun hb' => hhindered (hb hb')) (haccepted ▸ h)
  | rejected htrace hacc hout => exact .rejected htrace (haccepted.trans hacc) (hadmitted.trans hout)
  | cut hcut h => exact .cut (hcancelled hcut) (haccepted ▸ h)
  | dropped => exact .dropped

/-- How a call has ended does not depend on what is still to be sent. -/
theorem Stands.sent {r : Except ServiceError α} {unsent : Option Service.Status}
    (h : Stands J Q trace l (.ended r unsent)) (unsent' : Option Service.Status) :
    Stands J Q trace l (.ended r unsent') := by
  cases h with
  | ended hb h => exact .ended hb h
  | rejected htrace hacc hout => exact .rejected htrace hacc hout
  | cut hcancelled h => exact .cut hcancelled h

/-- Where a handler that does one thing stands after a step. -/
theorem Stands.step {a : Action ο α} {label : Option Deed} (hhandler : l.handler = .ofAction a)
    (ha : a.program.Yields J Q false [] []) (howed : l.stance.AsksNothing)
    (hd : l.Delivered) (h : Stands J Q trace l l.spot) (hstep : l.Step label l') :
    Stands J Q (trace ++ (label.bind Deed.asked).toList) l' l'.spot := by
  have hsame : ∀ {label : Option Deed}, label.bind Deed.asked = none →
      trace ++ (label.bind Deed.asked).toList = trace := by
    intro label hnone
    rw [hnone]
    exact List.append_nil _
  cases hstep with
  | @pay d more hdue =>
    have hpaid : (some d).bind Deed.asked = none := Deed.asked_eq_none (howed.reading_eq_none hdue)
    rw [hsame hpaid]
    exact h.of_hindered rfl rfl id id
  | drift hdrift =>
    rw [hsame rfl]
    refine h.of_hindered rfl ?_ hdrift.hindered ?_
    · cases hdrift <;> rfl
    · cases hdrift with
      | cancel hstill => exact fun _ => rfl
      | _ => exact id
  | begin hfree hspot =>
    rw [hspot] at h
    rw [hsame rfl, hhandler]
    cases h with
    | fresh htrace hacc hout =>
      subst htrace
      refine .closing (b := false) nofun ?_
      show a.program.Yields J Q false [] l.stance.accepted
      rw [hacc]
      exact ha
  | deny hfree hspot cause millis =>
    rw [hspot] at h
    rw [hsame rfl]
    cases h with
    | fresh htrace hacc hout =>
      have halike := l.stance.begin_alike.trans (l.stance.begin.close_alike millis (.failed cause))
      exact .rejected htrace (halike.accepted.trans hacc) hout
  | @close p p' _ g hfree hspot hact =>
    rw [hspot] at h
    cases h with
    | closing hb h =>
      obtain ⟨b, h', hb'⟩ := h.act hb (hd.untold (.inr ⟨_, hspot⟩)).2 hact
      exact .closing hb' h'
  | @finish r hfree hspot millis =>
    rw [hspot] at h
    rw [hsame rfl]
    cases h with
    | closing hb h =>
      have halike := l.stance.close_alike millis (.ofResult r)
      exact .ended (fun hb' => halike.hindered (hb hb')) (halike.accepted.symm ▸ h.2)
  | @cut stage hfree hspot hcancelled times htimes millis =>
    rw [hspot] at h
    rw [hsame rfl]
    have halike := (l.stance.abandon_alike times).trans
      ((l.stance.abandon times).close_alike millis (.failed .cancelled))
    cases h with
    | closing hb h =>
      exact .cut (halike.cancelled.trans hcancelled) (halike.accepted.symm ▸ h.holds)
  | drop hfree hspot times htimes => exact .dropped
  | tellFailure hfree hspot hthere
  | tellNobody hfree hspot hgone =>
    rw [hspot] at h
    rw [hsame rfl]
    exact (h.sent none).of_hindered rfl rfl id id
  | @shut r hfree hspot hthere hread =>
    rw [hsame rfl]
    refine h.of_hindered rfl rfl ?_ id
    rintro (hcancelled | ⟨how, hending, _⟩)
    · exact .inl hcancelled
    · cases (Outbound.readerGone_eq_false_iff.1 hthere).symm.trans hending
  -- what is left can only befall a call that takes requests
  | handle hfree hspot hact =>
    rw [hspot] at h
    cases h
  | take hfree hspot harrivals =>
    rw [hspot] at h
    cases h
  | breakOff hfree hspot harrivals millis =>
    rw [hspot] at h
    cases h
  | stopTaking hfree hspot hcancelled millis =>
    rw [hspot] at h
    cases h
  | exhaust hfree hspot harrivals hsilent =>
    rw [hspot] at h
    cases h
  | answered hfree hspot =>
    rw [hspot] at h
    cases h
  | failed hfree hspot millis =>
    rw [hspot] at h
    cases h

end

/-- What a call of the server keeps to whose handler does one thing. -/
structure Keeps (J : List Asked → List ο → Prop)
    (Q : Bool → List Asked → List ο → Except ServiceError α → Prop) (a : Action ο α)
    (trace : List Asked) (l : Life ι ο Unit α) : Prop where
  handler : l.handler = .ofAction a
  served : l.served = true
  owed : l.stance.AsksNothing
  delivered : l.Delivered
  candid : l.Candid
  stands : Stands J Q trace l l.spot

section

variable {J : List Asked → List ο → Prop}
  {Q : Bool → List Asked → List ο → Except ServiceError α → Prop} {a : Action ο α}
  {trace : List Asked} {l l' : Life ι ο Unit α} {s s' : Alone ι ο Unit α}

theorem Keeps.step {label : Option Deed} (ha : a.program.Yields J Q false [] [])
    (h : Keeps J Q a trace l) (hstep : l.Step label l') :
    Keeps J Q a (trace ++ (label.bind Deed.asked).toList) l' where
  handler := hstep.kin.handler.trans h.handler
  served := hstep.kin.served.trans h.served
  owed := hstep.asksNothing h.owed
  delivered := hstep.delivered h.delivered
  candid := hstep.candid h.served h.delivered h.candid
  stands := h.stands.step h.handler ha h.owed h.delivered hstep

theorem keeps_start (J : List Asked → List ο → Prop)
    (Q : Bool → List Asked → List ο → Except ServiceError α → Prop) (a : Action ο α)
    (inbound : Inbound ι) (capacity : Nat) (enough : Option Nat) (attentive : Bool) :
    Keeps J Q a [] (.start (.ofAction a) true inbound
      (.ofCapacity capacity ⟨enough, attentive, [], none⟩)) where
  handler := rfl
  served := rfl
  owed _ hd := absurd hd List.not_mem_nil
  delivered := Life.delivered_start _ _ _ _ _ _
  candid := Life.candid_of_unsent fun _ => nofun
  stands := .fresh rfl rfl rfl

/-- A call keeps to it whatever others do. -/
theorem Keeps.runs {trace' : List Asked} (ha : a.program.Yields J Q false [] [])
    (h : Keeps J Q a trace s.life) (hruns : s.RunsAmong trace' s') : Keeps J Q a (trace ++ trace') s'.life := by
  induction hruns with
  | refl =>
    rw [List.append_nil]
    exact h
  | step _ hstep ih =>
    rw [← List.append_assoc]
    cases hstep with
    | own hlife hanswers => exact ih.step ha hlife
    | others now op =>
      rw [Option.toList_none, List.append_nil]
      exact ih

end

/-! ## §5. Calls that are executed. -/

end Alone

/-- A call goes on and its caller too, time goes by, and others have the store do something; with what the
clock on the wall has shown before and after each move of the call. -/
inductive Exchange.GoesAmong (x : Exchange ι ο σ α × World) :
    List (Instant × Instant) → Exchange ι ο σ α × World → Prop
  | refl : GoesAmong x [] x
  | move {shown : List (Instant × Instant)} {y z : Exchange ι ο σ α × World} (h : GoesAmong x shown y)
      (hmove : Exchange.Move y z) : GoesAmong x (shown ++ [(y.2.wall, z.2.wall)]) z
  | elapse {shown : List (Instant × Instant)} {e : Exchange ι ο σ α} {w : World}
      (h : GoesAmong x shown (e, w)) (w' : World) (hbackend : w'.backend = w.backend) :
      GoesAmong x shown (e, w')
  | others {shown : List (Instant × Instant)} {e : Exchange ι ο σ α} {w : World}
      (h : GoesAmong x shown (e, w)) (now : Instant) (op : Operation) :
      GoesAmong x shown (e, { w with backend := (w.backend.perform now op).2.1 })

/-- Whatever others have the store do, it does to the table. -/
theorem World.Holds.others {w : World} {t : Table} (hw : w.Holds t) (now : Instant) (op : Operation) :
    World.Holds { w with backend := (w.backend.perform now op).2.1 } (t.perform now op).2 := by
  refine ⟨?_, hw.faults⟩
  show (w.backend.engine.perform now op).2.1 = _
  rw [hw.engine]
  rfl

namespace Alone

section

variable {s s' : Alone ι ο σ α} {e e' : Exchange ι ο σ α} {w w' : World}

/-- What a call does that has the store for itself, it also does among others. -/
theorem Does.among {deeds : List Deed} (h : s.Does deeds s') :
    s.RunsAmong (deeds.filterMap Deed.asked) s' := by
  refine Does.keeps (I := fun deeds => s.RunsAmong (deeds.filterMap Deed.asked)) ?_ [] .refl h
  intro done label s₁ s₂ hruns hstep hanswers
  have hall := hruns.step (.own hstep hanswers)
  rw [List.filterMap_append]
  cases label with
  | none => exact hall
  | some d => cases d <;> exact hall

/-- What a call does that is executed among others it does by steps, and what it reads of the clock the
clock on the wall has shown. -/
theorem Shows.goesAmong {shown : List (Instant × Instant)} (h : s.Shows e w)
    (hgoes : Exchange.GoesAmong (e, w) shown (e', w')) :
    ∃ trace s', s.RunsAmong trace s' ∧ ReadIn shown (trace.map Asked.reading) ∧ s'.Shows e' w' := by
  generalize hy : (e', w') = y at hgoes
  induction hgoes generalizing e' w' with
  | refl =>
    cases hy
    exact ⟨[], s, .refl, .nil, h⟩
  | @move shown y z _ hmove ih =>
    cases hy
    obtain ⟨trace, s₁, hruns, hread, hshows⟩ := @ih y.1 y.2 rfl
    obtain ⟨deeds, s₂, hdoes, hread', hshows'⟩ := hshows.move hmove
    refine ⟨_, s₂, hruns.trans hdoes.among, ?_, hshows'⟩
    rw [List.map_append, map_reading_asked]
    exact hread.concat hread'
  | @elapse shown e₁ w₁ _ w₂ hbackend ih =>
    cases hy
    obtain ⟨trace, s₁, hruns, hread, hshows⟩ := ih rfl
    exact ⟨trace, s₁, hruns, hread, hshows.elapse hbackend⟩
  | @others shown e₁ w₁ _ now op ih =>
    cases hy
    obtain ⟨trace, s₁, hruns, hread, hshows⟩ := ih rfl
    refine ⟨_, _, hruns.step (.others now op), ?_, hshows.call, hshows.table.others now op,
      hshows.harmless⟩
    rw [Option.toList_none, List.append_nil]
    exact hread

end

end Alone

end UserDirectory.Call
