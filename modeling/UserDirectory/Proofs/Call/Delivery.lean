import UserDirectory.Proofs.Call.Alone
/-!
# What a call takes and what its caller reads

A call takes the requests in their order.  The caller reads the responses that the channel has
accepted, in their order, and after them at most one status, which tells why the call has failed.  A
caller who stops reading because nothing more can come has read all of them.

Main statements:
  * `Program.Act.stance_cases`: what a program does to the channel;
  * `Life.Step.delivered`: what a step of a call keeps of the order of responses;
  * `Life.Step.requests_eq`: no request is lost;
  * `Alone.Calm.progress`: a calm call can go on if its handler can.
-/

namespace UserDirectory.Call

open UserDirectory.Service (ServiceError)
open UserDirectory.Store (Table)

variable {ι ο σ α : Type}

/-! ## §1. The chain and the channel. -/

/-- What a call owes asks nothing of the store or the clock. -/
def Stance.AsksNothing (g : Stance ο) : Prop := ∀ d ∈ g.owed, d.reading = none

/-- Two stances differ only in what the chain has to do with. -/
structure Stance.Alike (g g' : Stance ο) : Prop where
  cancelled : g'.cancelled = g.cancelled
  outbound : g'.outbound = g.outbound
  accepted : g'.accepted = g.accepted
  /-- the chain asks nothing -/
  owed : g.AsksNothing → g'.AsksNothing

section

variable {g g' g'' : Stance ο}

theorem Stance.Alike.refl : g.Alike g := ⟨rfl, rfl, rfl, id⟩

theorem Stance.Alike.trans (h : g.Alike g') (h' : g'.Alike g'') : g.Alike g'' :=
  ⟨h'.cancelled.trans h.cancelled, h'.outbound.trans h.outbound, h'.accepted.trans h.accepted,
    h'.owed ∘ h.owed⟩

theorem Stance.begin_alike (g : Stance ο) : g.Alike g.begin := by
  refine ⟨rfl, rfl, rfl, fun h => List.forall_mem_append.2 ⟨h, ?_⟩⟩
  simp [Deed.opening, Deed.reading]

theorem Stance.close_alike (g : Stance ο) (millis : Nat) (e : PassEnd) :
    g.Alike (g.close millis e) := by
  unfold Stance.close
  split
  · exact .refl
  · refine ⟨rfl, rfl, rfl, fun h => List.forall_mem_append.2 ⟨h, ?_⟩⟩
    simp [Deed.closing, Deed.reading]

theorem Stance.abandon_alike (g : Stance ο) (times : List Nat) : g.Alike (g.abandon times) := by
  induction times generalizing g with
  | nil => exact .refl
  | cons millis times ih => exact (g.close_alike millis .abandoned).trans (ih _)

/-- A program leaves the channel to itself, or cancels its call, or sends a response to a caller who is
there. -/
theorem Program.Act.stance_cases {p p' : Program ο α} {label : Option Deed}
    (hact : p.Act g label g' p') :
    g.Alike g' ∨ g' = { g with cancelled := true }
    ∨ ∃ item, g.outbound.readerGone = false ∧ g' = g.accept item := by
  cases hact with
  | send item next hthere hroom => exact .inr (.inr ⟨item, hthere, rfl⟩)
  | cancel next => exact .inr (.inl rfl)
  | enter next => exact .inl g.begin_alike
  | enterDenied next cause millis =>
    exact .inl (g.begin_alike.trans (g.begin.close_alike millis _))
  | leave failure next millis => exact .inl (g.close_alike millis _)
  | _ => exact .inl .refl

end

/-! ## §2. The order of responses. -/

/-- What is read and what waits are the accepted responses in their order, and then what has been told of
the failure of the call. -/
structure Stance.Delivers (g : Stance ο) (told : List (Response ο)) : Prop where
  room : 0 < g.outbound.capacity
  read : g.outbound.reader.received <+: g.accepted.map .ok ++ told
  waiting : g.outbound.reader.ending = none →
    g.outbound.reader.received ++ g.outbound.waiting = g.accepted.map .ok ++ told
  closed : g.outbound.reader.ending = some .closed →
    g.outbound.reader.received = g.accepted.map .ok ++ told

/-- What can have been told of the failure of a call that has come so far. -/
def Spot.Tells : Spot ο σ α → List (Response ο) → Prop
  | ended (.error cause) none, told => told = [] ∨ told = [.error cause.status]
  | ended (.error cause) (some unsent), told => told = [] ∧ unsent = cause.status
  | ended (.ok _) unsent, told => told = [] ∧ unsent = none
  | _, told => told = []

/-- The responses of a call are read in their order. -/
structure Life.Delivered (l : Life ι ο σ α) : Prop where
  order : ∃ told, l.stance.Delivers told ∧ l.spot.Tells told
  /-- that nothing more can come shows only when the call has ended -/
  shut : l.stance.outbound.reader.ending = some .closed → ∃ r, l.spot = .ended r none

section

variable {g g' : Stance ο} {told : List (Response ο)}

theorem Stance.delivers_start (capacity : Nat) (enough : Option Nat) (attentive : Bool) :
    (Stance.start (.ofCapacity capacity ⟨enough, attentive, ([] : List (Response ο)), none⟩)).Delivers
      [] :=
  ⟨Nat.lt_of_lt_of_le Nat.zero_lt_one (Nat.le_max_right capacity 1), List.prefix_rfl, fun _ => rfl, nofun⟩

theorem Stance.Delivers.of_alike (h : g.Delivers told) (ha : g.Alike g') : g'.Delivers told := by
  obtain ⟨hroom, hread, hwaiting, hclosed⟩ := h
  rw [← ha.outbound, ← ha.accepted] at *
  exact ⟨hroom, hread, hwaiting, hclosed⟩

theorem Outbound.readerGone_eq_false_iff {o : Outbound ο} :
    o.readerGone = false ↔ o.reader.ending = none :=
  Option.isSome_eq_false_iff.trans Option.isNone_iff_eq_none

/-- How a caller who is there stops reading. -/
theorem Outbound.ending_leave {o : Outbound ο} (hthere : o.readerGone = false) (how : ReaderEnd) :
    (o.leave how).reader.ending = some how := by
  show some (o.reader.ending.getD how) = _
  rw [readerGone_eq_false_iff.1 hthere]
  rfl

/-- The caller who is there sees the responses in their order. -/
theorem Stance.Delivers.waiting_of_there (h : g.Delivers told)
    (hthere : g.outbound.readerGone = false) :
    g.outbound.reader.received ++ g.outbound.waiting = g.accepted.map .ok ++ told :=
  h.waiting (Outbound.readerGone_eq_false_iff.1 hthere)

/-- What befalls a call does not change the order. -/
theorem Stance.Drift.delivers (hdrift : g.Drift g') (h : g.Delivers told) : g'.Delivers told := by
  cases hdrift with
  | @read first rest hthere hwaiting =>
    have horder := h.waiting_of_there hthere
    rw [hwaiting] at horder
    have hread : g.outbound.reader.received ++ [first] ++ rest = g.accepted.map .ok ++ told := by
      rw [List.append_assoc]
      exact horder
    refine ⟨h.room, ⟨rest, hread⟩, fun _ => hread, fun hclosed => ?_⟩
    have hnone := Outbound.readerGone_eq_false_iff.1 hthere
    exact absurd (hnone.symm.trans hclosed) nofun
  | depart how hthere hhow =>
    have hending := Outbound.ending_leave hthere how
    refine ⟨h.room, h.read, fun hstill => ?_, fun hclosed => ?_⟩
    · exact absurd (hending.symm.trans hstill) nofun
    · exact absurd (Option.some.inj (hending.symm.trans hclosed)) hhow
  | cancel hstill => exact ⟨h.room, h.read, h.waiting, h.closed⟩

/-- Nobody comes to the end by what befalls a call. -/
theorem Stance.Drift.closed (hdrift : g.Drift g')
    (h : g'.outbound.reader.ending = some .closed) : g.outbound.reader.ending = some .closed := by
  cases hdrift with
  | read hthere hwaiting => exact h
  | depart how hthere hhow =>
    have hending := Outbound.ending_leave hthere how
    exact absurd (Option.some.inj (hending.symm.trans h)) hhow
  | cancel hstill => exact h

/-- One more waits to be read. -/
theorem Stance.Delivers.push (h : g.Delivers told) (hthere : g.outbound.readerGone = false)
    {r : Response ο} {told' : List (Response ο)} {accepted : List ο}
    (hlast : accepted.map .ok ++ told' = g.accepted.map .ok ++ told ++ [r]) :
    Delivers { g with outbound := g.outbound.push r, accepted } told' where
  room := h.room
  read := by
    rw [hlast]
    exact h.read.trans (List.prefix_append _ _)
  waiting _ := by
    rw [hlast, ← h.waiting_of_there hthere]
    exact (List.append_assoc _ _ _).symm
  closed hclosed := by
    have hnone := Outbound.readerGone_eq_false_iff.1 hthere
    exact absurd (hnone.symm.trans hclosed) nofun

/-- A program that has not ended sends responses and nothing else, and nobody comes to the end by it. -/
theorem Program.Act.delivers {p p' : Program ο α} {label : Option Deed} (hact : p.Act g label g' p')
    (h : g.Delivers []) :
    g'.Delivers [] ∧ g'.outbound.reader.ending = g.outbound.reader.ending := by
  rcases hact.stance_cases with ha | rfl | ⟨item, hthere, rfl⟩
  · exact ⟨h.of_alike ha, congrArg (·.reader.ending) ha.outbound⟩
  · exact ⟨⟨h.room, h.read, h.waiting, h.closed⟩, rfl⟩
  · refine ⟨h.push hthere ?_, rfl⟩
    rw [List.map_append, List.append_nil, List.append_nil]
    rfl

end

/-! ## §3. Calls. -/

section

variable {l l' : Life ι ο σ α} {told : List (Response ο)}

theorem Life.delivered_start (handler : Handler ι ο σ α) (served : Bool) (inbound : Inbound ι)
    (capacity : Nat) (enough : Option Nat) (attentive : Bool) :
    (Life.start handler served inbound
      (.ofCapacity capacity ⟨enough, attentive, [], none⟩)).Delivered :=
  ⟨⟨[], Stance.delivers_start capacity enough attentive, rfl⟩, nofun⟩

/-- Of a call that has not ended nothing has been told, and the caller has not read everything. -/
theorem Life.Delivered.untold (h : l.Delivered)
    (hspot : l.spot = .fresh ∨ ∃ stage, l.spot = .going stage) :
    l.stance.Delivers [] ∧ l.stance.outbound.reader.ending ≠ some .closed := by
  obtain ⟨⟨told, horder, htold⟩, hshut⟩ := h
  have hnone : told = [] := by
    rcases hspot with hspot | ⟨stage, hspot⟩ <;> rw [hspot] at htold <;> exact htold
  refine ⟨hnone ▸ horder, fun hclosed => ?_⟩
  obtain ⟨r, hended⟩ := hshut hclosed
  rcases hspot with hspot | ⟨stage, hspot⟩ <;> cases hspot.symm.trans hended

/-- A call that goes on to go on, or is dropped, has told nothing. -/
theorem Life.delivered_of_untold (hl : l'.stance.Delivers []
      ∧ l'.stance.outbound.reader.ending ≠ some .closed) (htold : l'.spot.Tells []) : l'.Delivered :=
  ⟨⟨[], hl.1, htold⟩, fun hclosed => absurd hclosed hl.2⟩

/-- A call that ends still has to tell why, if it does. -/
theorem Life.delivered_conclude {g : Stance ο} (hl : l.stance.Delivers []
      ∧ l.stance.outbound.reader.ending ≠ some .closed) (ha : l.stance.Alike g)
    (r : Except ServiceError α) : (l.conclude g r).Delivered := by
  refine Life.delivered_of_untold ⟨hl.1.of_alike ha, ?_⟩ ?_
  · show g.outbound.reader.ending ≠ some .closed
    rw [ha.outbound]
    exact hl.2
  · unfold Life.conclude
    cases l.served with
    | false =>
      cases r with
      | ok a => exact ⟨rfl, rfl⟩
      | error cause => exact Or.inl rfl
    | true => cases r <;> exact ⟨rfl, rfl⟩

/-- A step of a call keeps the order of its responses. -/
theorem Life.Step.delivered {label : Option Deed} (hstep : l.Step label l') (h : l.Delivered) :
    l'.Delivered := by
  cases hstep with
  | pay howed =>
    obtain ⟨⟨told, horder, htold⟩, hshut⟩ := h
    exact ⟨⟨told, ⟨horder.room, horder.read, horder.waiting, horder.closed⟩, htold⟩, hshut⟩
  | drift hdrift =>
    obtain ⟨⟨told, horder, htold⟩, hshut⟩ := h
    exact ⟨⟨told, hdrift.delivers horder, htold⟩, fun hclosed => hshut (hdrift.closed hclosed)⟩
  | begin hfree hspot =>
    obtain ⟨horder, hopen⟩ := h.untold (.inl hspot)
    exact Life.delivered_of_untold ⟨horder.of_alike l.stance.begin_alike, hopen⟩ rfl
  | deny hfree hspot cause millis =>
    exact Life.delivered_conclude (h.untold (.inl hspot))
      (l.stance.begin_alike.trans (l.stance.begin.close_alike millis _)) _
  | handle hfree hspot hact
  | close hfree hspot hact =>
    obtain ⟨horder, hopen⟩ := h.untold (.inr ⟨_, hspot⟩)
    obtain ⟨horder', hending⟩ := hact.delivers horder
    exact Life.delivered_of_untold ⟨horder', fun hclosed => hopen (hending.symm.trans hclosed)⟩ rfl
  | take hfree hspot harrivals => exact Life.delivered_of_untold (h.untold (.inr ⟨_, hspot⟩)) rfl
  | exhaust hfree hspot harrivals hsilent =>
    exact Life.delivered_of_untold (h.untold (.inr ⟨_, hspot⟩)) rfl
  | answered hfree hspot => exact Life.delivered_of_untold (h.untold (.inr ⟨_, hspot⟩)) rfl
  | breakOff hfree hspot hwhy millis
  | stopTaking hfree hspot hwhy millis =>
    exact Life.delivered_conclude (h.untold (.inr ⟨_, hspot⟩)) (l.stance.close_alike millis _) _
  | failed hfree hspot millis
  | finish hfree hspot millis =>
    exact Life.delivered_conclude (h.untold (.inr ⟨_, hspot⟩)) (l.stance.close_alike millis _) _
  | cut hfree hspot hcancelled times htimes millis =>
    exact Life.delivered_conclude (h.untold (.inr ⟨_, hspot⟩))
      ((l.stance.abandon_alike times).trans (Stance.close_alike _ millis _)) _
  | drop hfree hspot times htimes =>
    have hl := h.untold hspot
    have ha := l.stance.abandon_alike times
    refine Life.delivered_of_untold ⟨hl.1.of_alike ha, ?_⟩ rfl
    show (l.stance.abandon times).outbound.reader.ending ≠ some .closed
    rw [ha.outbound]
    exact hl.2
  | @tellFailure r cause hfree hspot hthere =>
    obtain ⟨⟨told, horder, htold⟩, hshut⟩ := h
    rw [hspot] at htold
    cases r with
    | ok a => cases htold.2
    | error e =>
      obtain ⟨rfl, rfl⟩ := htold
      refine ⟨⟨[.error e.status], horder.push hthere ?_, .inr rfl⟩, fun _ => ⟨_, rfl⟩⟩
      rw [List.append_nil]
  | @tellNobody r cause hfree hspot hgone =>
    obtain ⟨⟨told, horder, htold⟩, hshut⟩ := h
    rw [hspot] at htold
    cases r with
    | ok a => cases htold.2
    | error e => exact ⟨⟨told, horder, .inl htold.1⟩, fun _ => ⟨_, rfl⟩⟩
  | @shut r hfree hspot hthere hread =>
    obtain ⟨⟨told, horder, htold⟩, hshut⟩ := h
    have hall := horder.waiting_of_there hthere
    rw [hread, List.append_nil] at hall
    have hending := Outbound.ending_leave hthere .closed
    refine ⟨⟨told, ⟨horder.room, horder.read, fun hstill => ?_, fun _ => hall⟩, htold⟩,
      fun _ => ⟨r, hspot⟩⟩
    exact absurd (hending.symm.trans hstill) nofun

/-- Wherever a call is, nothing has been told of a failure or one status. -/
theorem Spot.Tells.cases_told {spot : Spot ο σ α} (h : spot.Tells told) :
    told = [] ∨ ∃ status, told = [.error status] := by
  cases spot with
  | ended r unsent =>
    cases r with
    | ok a => exact .inl h.1
    | error cause =>
      cases unsent with
      | none => exact Or.imp_right (fun h => ⟨_, h⟩) h
      | some unsent => exact .inl h.1
  | _ => exact .inl h

/-- What is told of a failure is no response. -/
theorem Spot.Tells.filterMap_toOption {spot : Spot ο σ α} (h : spot.Tells told) :
    told.filterMap Except.toOption = [] := by
  rcases h.cases_told with rfl | ⟨status, rfl⟩ <;> rfl

/-- The responses that are read are the first that have been accepted. -/
theorem Life.Delivered.messages (h : l.Delivered) :
    l.stance.outbound.reader.messages <+: l.stance.accepted := by
  obtain ⟨⟨told, horder, htold⟩, _⟩ := h
  have hread := horder.read.filterMap Except.toOption
  have hall : (l.stance.accepted.map Except.ok ++ told).filterMap Except.toOption
      = l.stance.accepted := by
    rw [List.filterMap_append, htold.filterMap_toOption, List.append_nil, List.filterMap_map]
    exact List.filterMap_some
  rwa [hall] at hread

/-- A caller who has come to the end of a call that has not failed has read every response, and nothing
else. -/
theorem Life.Delivered.received {a : α} {unsent : Option Service.Status} (h : l.Delivered)
    (hspot : l.spot = .ended (.ok a) unsent)
    (hclosed : l.stance.outbound.reader.ending = some .closed) :
    l.stance.outbound.reader.received = l.stance.accepted.map .ok := by
  obtain ⟨⟨told, horder, htold⟩, _⟩ := h
  rw [hspot] at htold
  have hread := horder.closed hclosed
  rwa [htold.1, List.append_nil] at hread

/-- A call that has ended stays as it has ended. -/
theorem Life.Step.ended {label : Option Deed} {r : Except ServiceError α}
    {unsent : Option Service.Status} (hstep : l.Step label l') (hspot : l.spot = .ended r unsent) :
    ∃ unsent, l'.spot = .ended r unsent := by
  cases hstep with
  | pay howed => exact ⟨unsent, hspot⟩
  | drift hdrift => exact ⟨unsent, hspot⟩
  | drop hfree hspot' times htimes =>
    rcases hspot' with hspot' | ⟨stage, hspot'⟩ <;> cases hspot'.symm.trans hspot
  | tellFailure hfree hspot' hthere =>
    cases hspot'.symm.trans hspot
    exact ⟨none, rfl⟩
  | tellNobody hfree hspot' hgone =>
    cases hspot'.symm.trans hspot
    exact ⟨none, rfl⟩
  | shut hfree hspot' hthere hread => exact ⟨unsent, hspot⟩
  -- what is left can only befall a call that has not ended
  | begin hfree hspot'
  | answered hfree hspot' => cases hspot'.symm.trans hspot
  | handle hfree hspot' hact
  | close hfree hspot' hact
  | take hfree hspot' hact
  | failed hfree hspot' hact
  | finish hfree hspot' hact => cases hspot'.symm.trans hspot
  | deny hfree hspot' cause millis
  | breakOff hfree hspot' cause millis
  | stopTaking hfree hspot' cause millis
  | exhaust hfree hspot' cause millis => cases hspot'.symm.trans hspot
  | cut hfree hspot' hcancelled times htimes millis => cases hspot'.symm.trans hspot

/-! ## §4. The order of requests. -/

/-- What has been taken and what has not are the requests in their order. -/
theorem Life.Step.requests_eq {label : Option Deed} (hstep : l.Step label l') :
    l'.taken.map Except.ok ++ l'.arrivals.map (·.content)
      = l.taken.map Except.ok ++ l.arrivals.map (·.content) := by
  cases hstep with
  | take hfree hspot harrivals =>
    rw [harrivals, List.map_append, List.append_assoc]
    rfl
  | _ => rfl

/-- After a step a call owes nothing that asks, if it has not before. -/
theorem Life.Step.asksNothing {label : Option Deed} (hstep : l.Step label l')
    (h : l.stance.AsksNothing) : l'.stance.AsksNothing := by
  have hact : ∀ {β : Type} {p p' : Program ο β} {g : Stance ο}, p.Act l.stance label g p' →
      g.AsksNothing := by
    intro β p p' g hact
    rcases hact.stance_cases with ha | rfl | ⟨item, _, rfl⟩
    · exact ha.owed h
    · exact h
    · exact h
  cases hstep with
  | pay howed =>
    intro d hd
    exact h d (howed ▸ List.mem_cons_of_mem _ hd)
  | drift hdrift => cases hdrift <;> exact h
  | begin hfree hspot => exact l.stance.begin_alike.owed h
  | deny hfree hspot cause millis =>
    exact (l.stance.begin_alike.trans (l.stance.begin.close_alike millis _)).owed h
  | handle hfree hspot hstep => exact hact hstep
  | close hfree hspot hstep => exact hact hstep
  | breakOff hfree hspot hwhy millis
  | stopTaking hfree hspot hwhy millis => exact (l.stance.close_alike millis _).owed h
  | failed hfree hspot millis
  | finish hfree hspot millis => exact (l.stance.close_alike millis _).owed h
  | cut hfree hspot hcancelled times htimes millis =>
    exact ((l.stance.abandon_alike times).trans (Stance.close_alike _ millis _)).owed h
  | drop hfree hspot times htimes => exact (l.stance.abandon_alike times).owed h
  | _ => exact h

/-- What is paid by whoever owes nothing that asks is no reading. -/
theorem Stance.AsksNothing.reading_eq_none {g : Stance ο} {d : Deed} {more : List Deed}
    (h : g.AsksNothing) (howed : g.owed = d :: more) : d.reading = none :=
  h d (howed ▸ List.mem_cons_self)

end

/-! ## §5. Calls that can go on. -/

/-- A program is done, or there is a step of it by which its call is neither cancelled nor left by its
caller. -/
def Program.CanGo (p : Program ο α) (g : Stance ο) (t : Table) : Prop :=
  (∃ a, p = .done a) ∨ ∃ label g' p' t', p.Act g label g' p' ∧ Answers t label.toList t'
    ∧ g'.cancelled = g.cancelled ∧ g'.outbound.reader.ending = g.outbound.reader.ending

/-- What is done at a stage can go on; a handler that waits for a request does not wait forever. -/
def Stage.CanGo (l : Life ι ο σ α) (t : Table) : Stage ο σ α → Prop
  | awaiting _ => l.arrivals = [] → l.silent = false
  | handling p => p.CanGo l.stance t
  | closing p => p.CanGo l.stance t

namespace Alone

variable {l l' : Life ι ο σ α} {t t' : Table}

/-- What keeps a call calm. -/
theorem Calm.of_eq (h : Calm ⟨l, t⟩) (hcancelled : l'.stance.cancelled = l.stance.cancelled)
    (hending : l'.stance.outbound.reader.ending = l.stance.outbound.reader.ending)
    (hkept : l'.spot ≠ .dropped) (hin : l'.spot ≠ .fresh → l'.admitted = true) : Calm ⟨l', t'⟩ :=
  ⟨hcancelled.trans h.uncancelled, fun how hhow => h.heard how (hending.symm.trans hhow), hkept, hin⟩

/-- A calm call goes on with what is done at its stage. -/
theorem Calm.progress_going {stage : Stage ο σ α} (hcalm : Calm ⟨l, t⟩) (hspot : l.spot = .going stage)
    (hfree : l.stance.owed = []) (hstage : stage.CanGo l t) : ∃ s', Step ⟨l, t⟩ s' ∧ s'.Calm := by
  have hadmitted : l.admitted = true := hcalm.admitted (by rw [hspot]; exact nofun)
  have hgo : ∀ {l' : Life ι ο σ α} {t' label}, l.Step label l' → Answers t label.toList t' →
      l'.stance.cancelled = l.stance.cancelled →
      l'.stance.outbound.reader.ending = l.stance.outbound.reader.ending →
      l'.spot ≠ .dropped → l'.admitted = true → ∃ s', Step ⟨l, t⟩ s' ∧ s'.Calm :=
    fun {l' t' label} hlife ht hcancelled hending hkept hadmitted =>
      ⟨⟨l', t'⟩, ⟨label, hlife, ht⟩, hcalm.of_eq hcancelled hending hkept fun _ => hadmitted⟩
  -- the end of the outermost pass is a matter of the chain alone
  have hended : ∀ {r : Except ServiceError α}, l.Step none (l.finish 0 r) →
      ∃ s', Step ⟨l, t⟩ s' ∧ s'.Calm := fun {r} hlife =>
    have ha := l.stance.close_alike 0 (.ofResult r)
    hgo hlife rfl ha.cancelled (congrArg (·.reader.ending) ha.outbound) nofun hadmitted
  cases stage with
  | awaiting kept =>
    cases harrivals : l.arrivals with
    | nil => exact hgo (.exhaust hfree hspot harrivals (hstage harrivals)) rfl rfl rfl nofun hadmitted
    | cons a rest =>
      obtain ⟨content, delay⟩ := a
      cases content with
      | ok x => exact hgo (.take hfree hspot harrivals) rfl rfl rfl nofun hadmitted
      | error cause => exact hended (.breakOff hfree hspot harrivals 0)
  | handling p =>
    rcases hstage with ⟨r, rfl⟩ | ⟨label, g, p', t', hact, ht, hcancelled, hending⟩
    · cases r with
      | ok kept => exact hgo (.answered hfree hspot) rfl rfl rfl nofun hadmitted
      | error cause => exact hended (.failed hfree hspot 0)
    · exact hgo (.handle hfree hspot hact) ht hcancelled hending nofun hadmitted
  | closing p =>
    rcases hstage with ⟨r, rfl⟩ | ⟨label, g, p', t', hact, ht, hcancelled, hending⟩
    · exact hended (.finish hfree hspot 0)
    · exact hgo (.close hfree hspot hact) ht hcancelled hending nofun hadmitted

/-- A calm call whose caller reads can go on, if what is done at its stage can where the channel has
room. -/
theorem Calm.progress (hcalm : Calm ⟨l, t⟩) (hopen : l.stance.outbound.reader.ending = none)
    (howed : l.stance.AsksNothing) (hdelivered : l.Delivered)
    (hstage : ∀ stage, l.spot = .going stage → l.stance.outbound.readerGone = false →
      l.stance.outbound.hasRoom = true → stage.CanGo l t) : ∃ s', Step ⟨l, t⟩ s' ∧ s'.Calm := by
  have hthere : l.stance.outbound.readerGone = false := Outbound.readerGone_eq_false_iff.2 hopen
  have hkept : l.spot ≠ .dropped := hcalm.kept
  have hin : l.spot ≠ .fresh → l.admitted = true := hcalm.admitted
  -- what can be done without the store
  have hgo : ∀ {l' : Life ι ο σ α}, l.Step none l' →
      l'.stance.cancelled = l.stance.cancelled →
      l'.stance.outbound.reader.ending = l.stance.outbound.reader.ending →
      l'.spot ≠ .dropped → (l'.spot ≠ .fresh → l'.admitted = true) →
      ∃ s', Step ⟨l, t⟩ s' ∧ s'.Calm := fun {l'} hlife hcancelled hending hkept hadmitted =>
    ⟨⟨l', t⟩, .of_life hlife rfl t, hcalm.of_eq hcancelled hending hkept hadmitted⟩
  cases hfree : l.stance.owed with
  | cons d more =>
    refine ⟨⟨_, t⟩, .of_life (.pay hfree) ?_ t, hcalm.of_eq rfl rfl hkept hin⟩
    exact howed.reading_eq_none hfree
  | nil =>
    cases hwaiting : l.stance.outbound.waiting with
    | cons first rest => exact hgo (.drift (.read hthere hwaiting)) rfl rfl hkept hin
    | nil =>
      cases hspot : l.spot with
      | fresh => exact hgo (.begin hfree hspot) rfl rfl nofun fun _ => rfl
      | dropped => exact absurd hspot hkept
      | ended r unsent =>
        cases unsent with
        | none =>
          -- all has been read, and nothing more can come
          refine ⟨⟨_, t⟩, .of_life (.shut hfree hspot hthere hwaiting) rfl t,
            hcalm.uncancelled, fun how hhow => ?_, hkept, hin⟩
          exact Option.some.inj (hhow.symm.trans (Outbound.ending_leave hthere .closed))
        | some cause =>
          refine hgo (.tellFailure hfree hspot hthere) rfl rfl nofun fun _ => hin ?_
          rw [hspot]
          exact nofun
      | going stage =>
        refine hcalm.progress_going hspot hfree (hstage stage hspot hthere ?_)
        obtain ⟨told, horder, _⟩ := hdelivered.order
        unfold Outbound.hasRoom
        rw [hwaiting]
        exact decide_eq_true horder.room

end Alone

end UserDirectory.Call
