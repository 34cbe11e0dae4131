import UserDirectory.Proofs.Call.Answering
/-!
# Requests and responses in pairs

A call whose handler answers one request after another, and which has the store for itself, never is
more than one request ahead of its responses, whatever becomes of it.  Every step of a calm call uses up
some of what is still to be done, so it comes to an end; and there every request has its response.

Main statements:
  * `Pairing.Keeps.step`: what a step keeps, and what it uses up;
  * `Pairing.Keeps.progress`: a calm call can go on until its end;
  * `Pairing.Meets.pairsStrictly`: a handler that answers pairs requests and responses strictly.
-/

namespace UserDirectory.Call

open UserDirectory.Service (ServiceError)
open UserDirectory.Store (Table)

variable {ι ο : Type}

/-! ## §1. Strict pairing. -/

/-- A call and its store at any moment: the responses that are read belong to the requests in their
order, at most one request is taken and not answered, and the store is what the first requests have made
of it, all that are answered and none that is not taken.  No request is lost, and no response. -/
structure Alone.Paired (P : Pairing ι ο) (inbound : Inbound ι) (t₀ : Table)
    (s : Alone ι ο Unit Unit) : Prop where
  read : ∀ (k : Nat) (y : ο), s.life.stance.outbound.reader.messages[k]? = some y →
    ∃ a x, inbound.arrivals[k]? = some a ∧ a.content = .ok x ∧ P.respondent y = P.subject x
  requests : s.life.taken.map .ok ++ s.life.arrivals.map (·.content)
    = inbound.arrivals.map (·.content)
  responses : s.life.Delivered
  accepted_le : s.life.stance.accepted.length ≤ s.life.taken.length
  taken_le : s.life.taken.length ≤ s.life.stance.accepted.length + 1
  table : ∃ m, s.life.stance.accepted.length ≤ m ∧ m ≤ s.life.taken.length
    ∧ P.Applied t₀ (s.life.taken.take m) s.table

/-- The caller has read to the end, and got one response to each request and no status; each request has
had its effect. -/
def Alone.Complete (P : Pairing ι ο) (inbound : Inbound ι) (t₀ : Table) (s : Alone ι ο Unit Unit) :
    Prop :=
  ∃ (items : List ι) (responses : List ο), inbound.arrivals.map (·.content) = items.map .ok
    ∧ s.life.stance.outbound.reader.ending = some .closed
    ∧ s.life.stance.outbound.reader.received = responses.map .ok
    ∧ responses.map P.respondent = items.map P.subject
    ∧ P.Applied t₀ items s.table

/-- A stream of requests that ends normally. -/
structure Inbound.Regular (i : Inbound ι) : Prop where
  sound : ∀ a ∈ i.arrivals, ∃ x, a.content = .ok x
  ends : i.silent = false

/-- A handler pairs requests and responses strictly in every call that has its store for itself, however
large the channel of responses is, at whatever pace they are read, and whatever becomes of the call. -/
structure Handler.PairsStrictly (h : Handler ι ο Unit Unit) (P : Pairing ι ο) : Prop where
  /-- it does so at every moment -/
  always : ∀ (served : Bool) (inbound : Inbound ι) (capacity : Nat) (enough : Option Nat)
    (attentive : Bool) (t₀ : Table) (s : Alone ι ο Unit Unit),
    (Alone.start h served inbound (.ofCapacity capacity ⟨enough, attentive, [], none⟩) t₀).Runs s →
    s.Paired P inbound t₀
  /-- if the requests end normally and the call ends calm, whoever reads to the end gets all -/
  complete : ∀ (served : Bool) (inbound : Inbound ι) (capacity : Nat) (enough : Option Nat)
    (attentive : Bool) (t₀ : Table) (s s' : Alone ι ο Unit Unit), inbound.Regular →
    (Alone.start h served inbound (.ofCapacity capacity ⟨enough, attentive, [], none⟩) t₀).Runs s →
    s.Calm → (∃ r unsent, s.life.spot = .ended r unsent) → s.Runs s' →
    s'.life.stance.outbound.reader.ending = some .closed → s'.Complete P inbound t₀
  /-- and it comes to that, as long as the call is calm -/
  inevitable : ∀ (served : Bool) (inbound : Inbound ι) (capacity : Nat) (enough : Option Nat)
    (attentive : Bool) (t₀ : Table), inbound.Regular →
    (Alone.start h served inbound
      (.ofCapacity capacity ⟨enough, attentive, [], none⟩) t₀).Inevitably (·.Complete P inbound t₀)
  /-- calls that are executed are such calls, also where they are dropped -/
  executed : ∀ (manner : Manner) (cancelAt : Option Nat) (inbound : Inbound ι) (context : Context)
    (tie : Tie) (cancelled : Bool) (capacity : Nat) (enough : Option Nat) (attentive : Bool)
    (w w' : World) (t₀ : Table) (e : Exchange ι ο Unit Unit), manner ≠ .bare → w.Holds t₀ →
    Exchange.Goes (.start manner cancelAt (.start h inbound
      { CallState.start context tie (.ofCapacity capacity ⟨enough, attentive, [], none⟩) w.clock with
        cancelled }), w) (e, w') →
    ∃ s, (Alone.start h (decide (manner = .served)) inbound
        (.ofCapacity capacity ⟨enough, attentive, [], none⟩) t₀).Runs s ∧ s.Shows e w'
      ∧ (∀ state, e.phase = .ended (.ok ()) state →
          state.outbound.reader.ending = some .closed → s.Complete P inbound t₀)
      ∧ (e.hasEnded = false → ∃ s', s.Runs s' ∧ s'.life.spot = .dropped
          ∧ (e.drop w').2.Holds s'.table)

/-! ## §2. What a call keeps to. -/

namespace Pairing

/-- What a call that answers has come to, and how much is still to do at most until its end.  The
beginning of its pass leaves two deeds to be done and the end of it three; the requests that have not
been taken are not counted. -/
inductive Stands (P : Pairing ι ο) (answer : ι → Action ο ο) (bound : Nat) (t₀ : Table)
    (taken : List ι) (g : Stance ο) (t : Table) (exhausted excused : Prop) :
    Spot ο Unit Unit → Nat → Prop
  | fresh (hout : excused) (h : P.Even t₀ taken g.accepted t) :
      Stands P answer bound t₀ taken g t exhausted excused .fresh 10
  | awaiting (h : P.Even t₀ taken g.accepted t) :
      Stands P answer bound t₀ taken g t exhausted excused (.going (.awaiting ())) 7
  | handling {p : Program ο (Except ServiceError Unit)} {k : Nat}
      (h : P.Handling answer bound t₀ taken g t p k) :
      Stands P answer bound t₀ taken g t exhausted excused (.going (.handling p)) k
  | closing (hexhausted : exhausted) (h : P.Even t₀ taken g.accepted t) :
      Stands P answer bound t₀ taken g t exhausted excused (.going (.closing (.done (.ok ())))) 6
  | ended (hexhausted : exhausted) (h : P.Even t₀ taken g.accepted t) :
      Stands P answer bound t₀ taken g t exhausted excused (.ended (.ok ()) none) 0
  | failed {cause : ServiceError} {unsent : Option Service.Status} (hwhy : g.Hindered ∨ excused)
      (h : P.Even t₀ taken g.accepted t ∨ P.Behind t₀ taken g.accepted t) :
      Stands P answer bound t₀ taken g t exhausted excused (.ended (.error cause) unsent)
        (unsent.elim 0 fun _ => 2)
  | dropped (h : P.Even t₀ taken g.accepted t ∨ P.Behind t₀ taken g.accepted t) :
      Stands P answer bound t₀ taken g t exhausted excused .dropped 0

/-- There are no more requests, and it shows. -/
def Exhausted (l : Life ι ο Unit Unit) : Prop := l.arrivals = [] ∧ l.silent = false

/-- A call that is kept from its work by the chain or by a failure of the connection. -/
def Excused (inbound : Inbound ι) (l : Life ι ο Unit Unit) : Prop :=
  l.admitted = false ∨ ∃ cause, .error cause ∈ inbound.arrivals.map (·.content)

/-- Where a call stands. -/
abbrev StandsAt (P : Pairing ι ο) (answer : ι → Action ο ο) (bound : Nat) (inbound : Inbound ι)
    (t₀ : Table) (l : Life ι ο Unit Unit) (t : Table) (k : Nat) : Prop :=
  P.Stands answer bound t₀ l.taken l.stance t (Exhausted l) (Excused inbound l) l.spot k

/-- What a call that answers keeps to, and how much of its present work is left at most. -/
structure Keeps (P : Pairing ι ο) (answer : ι → Action ο ο) (bound : Nat) (inbound : Inbound ι)
    (t₀ : Table) (s : Alone ι ο Unit Unit) (k : Nat) : Prop where
  handler : s.life.handler = .ofAnswers answer
  silent : s.life.silent = inbound.silent
  owed : s.life.stance.AsksNothing
  requests : s.life.taken.map .ok ++ s.life.arrivals.map (·.content)
    = inbound.arrivals.map (·.content)
  delivered : s.life.Delivered
  stands : P.StandsAt answer bound inbound t₀ s.life s.table k

/-- How much is still to do until the end at most: the present work, the requests that have not been
taken, what is owed and what waits to be read. -/
def weight (bound : Nat) (l : Life ι ο Unit Unit) (k : Nat) : Nat :=
  k + (bound + 5) * l.arrivals.length + l.stance.owed.length + l.stance.outbound.waiting.length

section

variable {P : Pairing ι ο} {answer : ι → Action ο ο} {bound k : Nat} {t₀ t t' : Table}
  {taken : List ι} {g g' : Stance ο} {exhausted excused excused' : Prop} {spot : Spot ο Unit Unit}

/-- A call is level with its requests or one behind. -/
theorem Stands.even_or_behind (h : P.Stands answer bound t₀ taken g t exhausted excused spot k) :
    P.Even t₀ taken g.accepted t ∨ P.Behind t₀ taken g.accepted t := by
  cases h with
  | handling h => exact h.even_or_behind
  | failed hwhy h => exact h
  | dropped h => exact h
  | fresh hout h => exact .inl h
  | awaiting h => exact .inl h
  | closing hexhausted h => exact .inl h
  | ended hexhausted h => exact .inl h

/-- Being held up more than before changes nothing else. -/
theorem Stands.of_hindered (h : P.Stands answer bound t₀ taken g t exhausted excused spot k)
    (haccepted : g'.accepted = g.accepted) (hhindered : g.Hindered → g'.Hindered) :
    P.Stands answer bound t₀ taken g' t exhausted excused spot k := by
  cases h with
  | fresh hout h => exact .fresh hout (haccepted ▸ h)
  | awaiting h => exact .awaiting (haccepted ▸ h)
  | closing hexhausted h => exact .closing hexhausted (haccepted ▸ h)
  | ended hexhausted h => exact .ended hexhausted (haccepted ▸ h)
  | failed hwhy h => exact .failed (hwhy.imp_left hhindered) (haccepted ▸ h)
  | dropped h => exact .dropped (haccepted ▸ h)
  | handling h =>
    refine .handling ?_
    cases h with
    | answered h => exact .answered (haccepted ▸ h)
    | failed hwhy h => exact .failed (hhindered hwhy) (haccepted ▸ h)
    | asking htaken h => exact .asking htaken (haccepted ▸ h)
    | answering htaken h hquiet honce hstill hchanged =>
      exact .answering htaken (haccepted ▸ h) hquiet honce hstill hchanged

end

/-! ## §3. Steps. -/

section

variable {P : Pairing ι ο} {answer : ι → Action ο ο} {bound k : Nat} {t₀ : Table}
  {inbound : Inbound ι} {s s' : Alone ι ο Unit Unit}

/-- A pass that ends adds three deeds to what is owed, if there is a pass. -/
theorem length_owed_close (g : Stance ο) (millis : Nat) (e : PassEnd) :
    (g.close millis e).owed.length ≤ g.owed.length + 3 := by
  unfold Stance.close
  split
  · exact Nat.le_add_right _ 3
  · exact Nat.le_of_eq List.length_append

/-- Where no request is taken, the weight is that of the present work, what is owed and what waits. -/
theorem weight_lt {l l' : Life ι ο Unit Unit} {k' : Nat} (harrivals : l'.arrivals = l.arrivals)
    (h : k' + l'.stance.owed.length + l'.stance.outbound.waiting.length
      < k + l.stance.owed.length + l.stance.outbound.waiting.length) :
    weight bound l' k' < weight bound l k := by
  unfold weight
  rw [harrivals]
  omega

section

variable {l l' : Life ι ο Unit Unit} {t t' : Table}

/-- A call that ends with a failure still may have to tell it. -/
theorem stands_conclude {g : Stance ο} (ha : l.stance.Alike g) (cause : ServiceError)
    (hwhy : l.stance.Hindered ∨ Excused inbound l)
    (h : P.Even t₀ l.taken l.stance.accepted t ∨ P.Behind t₀ l.taken l.stance.accepted t)
    (howed : g.owed.length + 2 < k + l.stance.owed.length) :
    ∃ k', P.StandsAt answer bound inbound t₀ (l.conclude g (.error cause)) t k'
      ∧ weight bound (l.conclude g (.error cause)) k' < weight bound l k := by
  have htold : ∀ unsent : Option Service.Status, (unsent.elim 0 fun _ => 2) ≤ 2 := by
    intro unsent
    cases unsent with
    | none => exact Nat.zero_le 2
    | some _ => exact Nat.le_refl 2
  have hk := htold (if l.served then some cause.status else none)
  refine ⟨_, .failed (hwhy.imp_left ha.hindered) (ha.accepted.symm ▸ h), weight_lt rfl ?_⟩
  refine Nat.lt_of_le_of_lt (m := 2 + g.owed.length + g.outbound.waiting.length) ?_ ?_
  · exact Nat.add_le_add_right (Nat.add_le_add_right hk _) _
  · rw [ha.outbound]
    omega

/-- So it is if the handler ends with a failure. -/
theorem stands_finish (millis : Nat) (cause : ServiceError)
    (hwhy : l.stance.Hindered ∨ Excused inbound l)
    (h : P.Even t₀ l.taken l.stance.accepted t ∨ P.Behind t₀ l.taken l.stance.accepted t)
    (hk : 5 < k) :
    ∃ k', P.StandsAt answer bound inbound t₀ (l.finish millis (.error cause)) t k'
      ∧ weight bound (l.finish millis (.error cause)) k' < weight bound l k := by
  have ha := l.stance.close_alike millis (.ofResult (.error cause : Except ServiceError Unit))
  have howed := length_owed_close l.stance millis
    (.ofResult (.error cause : Except ServiceError Unit))
  exact stands_conclude ha cause hwhy h (by omega)

/-- Where a call stands after a step, and what a step of a calm call has used up before the end. -/
theorem StandsAt.step {label : Option Deed} (hmeets : P.Meets answer bound)
    (hhandler : l.handler = .ofAnswers answer) (howed : l.stance.AsksNothing)
    (hrequests : l.taken.map .ok ++ l.arrivals.map (·.content) = inbound.arrivals.map (·.content))
    (hdelivered : l.Delivered) (h : P.StandsAt answer bound inbound t₀ l t k)
    (hlife : l.Step label l') (ht : Answers t label.toList t') :
    ∃ k', P.StandsAt answer bound inbound t₀ l' t' k'
      ∧ (Alone.Calm ⟨l, t⟩ → Alone.Calm ⟨l', t'⟩ → l'.stance.outbound.reader.ending = none →
          weight bound l' k' < weight bound l k) := by
  unfold StandsAt at h
  cases hlife with
  | @pay d more hdue =>
    cases (answers_iff_eq (List.filterMap_cons_none (howed.reading_eq_none hdue))).1 ht
    refine ⟨k, h.of_hindered rfl id, fun _ _ _ => weight_lt rfl ?_⟩
    show k + more.length + l.stance.outbound.waiting.length < _
    rw [hdue, List.length_cons]
    omega
  | @drift g hdrift =>
    cases ht
    cases hdrift with
    | @read first rest hthere hwaiting =>
      refine ⟨k, h.of_hindered rfl id, fun _ _ _ => weight_lt rfl ?_⟩
      show k + l.stance.owed.length + rest.length < _
      rw [hwaiting, List.length_cons]
      omega
    | depart how hthere hhow =>
      refine ⟨k, h.of_hindered rfl (Or.imp_right fun hleft => ?_), fun _ _ hopen => by cases hopen⟩
      obtain ⟨how', hending, _⟩ := hleft
      rw [Outbound.readerGone_eq_false_iff.1 hthere] at hending
      cases hending
    | cancel hstill =>
      exact ⟨k, h.of_hindered rfl fun _ => .inl rfl, fun _ hcalm _ => by cases hcalm.uncancelled⟩
  | begin hfree hspot =>
    cases ht
    rw [hspot] at h
    cases h with
    | fresh hout h =>
      refine ⟨7, ?_, fun _ _ _ => weight_lt rfl ?_⟩
      · unfold StandsAt
        rw [hhandler]
        exact .awaiting h
      · have hlength : l.stance.begin.owed.length = l.stance.owed.length + 2 := List.length_append
        show 7 + l.stance.begin.owed.length + l.stance.outbound.waiting.length < _
        omega
  | deny hfree hspot cause millis =>
    cases ht
    rw [hspot] at h
    cases h with
    | fresh hout h =>
      have hlength : l.stance.begin.owed.length = l.stance.owed.length + 2 := List.length_append
      have hclosed := length_owed_close l.stance.begin millis (.failed cause)
      obtain ⟨k', hstands, hlt⟩ := stands_conclude (k := 10)
        (l.stance.begin_alike.trans (l.stance.begin.close_alike millis (.failed cause))) cause
        (.inr hout) (.inl h) (by omega)
      exact ⟨k', hstands, fun _ _ _ => hlt⟩
  | @handle p p' label g hfree hspot hact =>
    rw [hspot] at h
    cases h with
    | handling h =>
      obtain ⟨howed, k', hk', hlt⟩ := h.act hmeets (hdelivered.untold (.inr ⟨_, hspot⟩)).2 hact ht
      refine ⟨k', .handling hk', fun _ _ _ => weight_lt rfl ?_⟩
      show k' + g.owed.length + g.outbound.waiting.length < _
      rw [howed]
      omega
  | close hfree hspot hact =>
    rw [hspot] at h
    cases h with
    | closing hexhausted h => cases hact
  | @take kept x delay rest hfree hspot harrivals =>
    cases ht
    rw [hspot] at h
    cases h with
    | awaiting h =>
      refine ⟨11 + bound, ?_, fun _ _ _ => ?_⟩
      · unfold StandsAt
        rw [hhandler, Handler.onItem_ofAnswers]
        exact .handling (.asking rfl h)
      · unfold weight
        rw [harrivals, List.length_cons, Nat.mul_add_one]
        show 11 + bound + (bound + 5) * rest.length + l.stance.owed.length
          + l.stance.outbound.waiting.length < _
        omega
  | @breakOff kept cause delay rest hfree hspot harrivals millis =>
    cases ht
    rw [hspot] at h
    cases h with
    | awaiting h =>
      have hbroken : Excused inbound l := by
        refine .inr ⟨cause, ?_⟩
        rw [← hrequests, harrivals]
        exact List.mem_append_right _ List.mem_cons_self
      obtain ⟨k', hstands, hlt⟩ := stands_finish (k := 7) millis (inboundFailure cause)
        (.inr hbroken) (.inl h) (by decide)
      exact ⟨k', hstands, fun _ _ _ => hlt⟩
  | @stopTaking kept hfree hspot hcancelled millis =>
    cases ht
    rw [hspot] at h
    cases h with
    | awaiting h =>
      obtain ⟨k', hstands, hlt⟩ := stands_finish (k := 7) millis .cancelled
        (.inl (.inl hcancelled)) (.inl h) (by decide)
      exact ⟨k', hstands, fun _ _ _ => hlt⟩
  | exhaust hfree hspot harrivals hsilent =>
    cases ht
    rw [hspot] at h
    cases h with
    | awaiting h =>
      refine ⟨6, ?_, fun _ _ _ => weight_lt rfl ?_⟩
      · unfold StandsAt
        rw [hhandler]
        exact .closing ⟨harrivals, hsilent⟩ h
      · show 6 + l.stance.owed.length + l.stance.outbound.waiting.length < _
        omega
  | answered hfree hspot =>
    cases ht
    rw [hspot] at h
    cases h with
    | handling h =>
      obtain ⟨rfl, ⟨_, h⟩ | ⟨hother, _⟩⟩ := h.done
      · refine ⟨7, .awaiting h, fun _ _ _ => weight_lt rfl ?_⟩
        show 7 + l.stance.owed.length + l.stance.outbound.waiting.length < _
        omega
      · cases hother
  | @failed cause hfree hspot millis =>
    cases ht
    rw [hspot] at h
    cases h with
    | handling h =>
      obtain ⟨rfl, ⟨hother, _⟩ | ⟨_, hhindered, h⟩⟩ := h.done
      · cases hother
      · obtain ⟨k', hstands, hlt⟩ := stands_finish (k := 8) millis cause (.inl hhindered)
          (.inr h) (by decide)
        exact ⟨k', hstands, fun _ _ _ => hlt⟩
  | @finish r hfree hspot millis =>
    cases ht
    rw [hspot] at h
    cases h with
    | closing hexhausted h =>
      have ha := l.stance.close_alike millis (.ofResult (.ok () : Except ServiceError Unit))
      have howed := length_owed_close l.stance millis
        (.ofResult (.ok () : Except ServiceError Unit))
      refine ⟨0, ?_, fun _ _ _ => weight_lt rfl ?_⟩
      · unfold StandsAt Life.finish Life.conclude
        have hnone : (if l.served then
            (Running.failureOf (.ok () : Except ServiceError Unit)).map ServiceError.status
            else none) = none := by
          split <;> rfl
        rw [hnone]
        exact .ended hexhausted (ha.accepted.symm ▸ h)
      · show 0 + (l.stance.close millis _).owed.length
          + (l.stance.close millis _).outbound.waiting.length < _
        rw [ha.outbound]
        omega
  | cut hfree hspot hcancelled times htimes millis =>
    cases ht
    have ha := (l.stance.abandon_alike times).trans
      ((l.stance.abandon times).close_alike millis (.failed .cancelled))
    refine ⟨_, .failed (.inl (ha.hindered (.inl hcancelled))) (ha.accepted.symm ▸ h.even_or_behind),
      fun hcalm _ _ => ?_⟩
    exact absurd (hcancelled.symm.trans hcalm.uncancelled) nofun
  | drop hfree hspot times htimes =>
    cases ht
    have ha := l.stance.abandon_alike times
    exact ⟨0, .dropped (ha.accepted.symm ▸ h.even_or_behind), fun _ hcalm _ => absurd rfl hcalm.kept⟩
  | tellFailure hfree hspot hthere =>
    cases ht
    rw [hspot] at h
    cases h with
    | failed hwhy h =>
      refine ⟨0, .failed hwhy h, fun _ _ _ => weight_lt rfl ?_⟩
      show 0 + l.stance.owed.length + (l.stance.outbound.waiting ++ [_]).length
        < 2 + l.stance.owed.length + l.stance.outbound.waiting.length
      rw [List.length_append, List.length_singleton]
      omega
  | tellNobody hfree hspot hgone =>
    cases ht
    rw [hspot] at h
    cases h with
    | failed hwhy h =>
      refine ⟨0, .failed hwhy h, fun _ _ _ => weight_lt rfl ?_⟩
      show 0 + l.stance.owed.length + l.stance.outbound.waiting.length
        < 2 + l.stance.owed.length + l.stance.outbound.waiting.length
      omega
  | shut hfree hspot hthere hread =>
    cases ht
    refine ⟨k, h.of_hindered rfl (Or.imp_right fun hleft => ?_), fun _ _ hopen => by cases hopen⟩
    obtain ⟨how, hending, _⟩ := hleft
    rw [Outbound.readerGone_eq_false_iff.1 hthere] at hending
    cases hending

end

/-- A step keeps to what is due, and a step of a calm call uses some of it up until the end. -/
theorem Keeps.step (hmeets : P.Meets answer bound) (h : P.Keeps answer bound inbound t₀ s k)
    (hstep : s.Step s') :
    ∃ k', P.Keeps answer bound inbound t₀ s' k'
      ∧ (s.Calm → s'.Calm → s'.life.stance.outbound.reader.ending = none →
          weight bound s'.life k' < weight bound s.life k) := by
  obtain ⟨label, hlife, ht⟩ := hstep
  obtain ⟨k', hstands, hweight⟩ :=
    StandsAt.step hmeets h.handler h.owed h.requests h.delivered h.stands hlife ht
  exact ⟨k', ⟨hlife.kin.handler.trans h.handler, hlife.kin.silent.trans h.silent,
    hlife.asksNothing h.owed, hlife.requests_eq.trans h.requests,
    hlife.delivered h.delivered, hstands⟩, hweight⟩

/-- A call that has not begun. -/
theorem keeps_start (P : Pairing ι ο) (answer : ι → Action ο ο) (bound : Nat) (served : Bool)
    (inbound : Inbound ι) (capacity : Nat) (enough : Option Nat) (attentive : Bool) (t₀ : Table) :
    P.Keeps answer bound inbound t₀
      (.start (.ofAnswers answer) served inbound (.ofCapacity capacity ⟨enough, attentive, [], none⟩) t₀)
      10 where
  handler := rfl
  silent := rfl
  owed _ hd := absurd hd List.not_mem_nil
  requests := rfl
  delivered := Life.delivered_start _ _ _ _ _ _
  stands := .fresh (.inl rfl) ⟨rfl, rfl⟩

theorem Keeps.runs (hmeets : P.Meets answer bound) (h : P.Keeps answer bound inbound t₀ s k)
    (hruns : s.Runs s') : ∃ k', P.Keeps answer bound inbound t₀ s' k' := by
  induction hruns with
  | refl => exact ⟨k, h⟩
  | tail _ hstep ih =>
    obtain ⟨k', h'⟩ := ih
    obtain ⟨k'', h'', _⟩ := h'.step hmeets hstep
    exact ⟨k'', h''⟩

/-! ## §4. What a call that keeps to what is due looks like. -/

/-- The responses that have been accepted are about the first requests that have been taken; all of
these but one at most. -/
theorem Keeps.level (h : P.Keeps answer bound inbound t₀ s k) :
    s.life.stance.accepted.map P.respondent <+: s.life.taken.map P.subject
      ∧ s.life.taken.length ≤ s.life.stance.accepted.length + 1
      ∧ ∃ m, s.life.stance.accepted.length ≤ m ∧ m ≤ s.life.taken.length
        ∧ P.Applied t₀ (s.life.taken.take m) s.table := by
  rcases h.stands.even_or_behind with ⟨hids, htable⟩ | ⟨before, x, t₁, htaken, ⟨hids, hbefore⟩, hlast⟩
  · have hlength := congrArg List.length hids
    rw [List.length_map, List.length_map] at hlength
    refine ⟨hids ▸ List.prefix_rfl, by omega, s.life.taken.length, by omega, Nat.le_refl _, ?_⟩
    rwa [List.take_length]
  · have hlength := congrArg List.length hids
    rw [List.length_map, List.length_map] at hlength
    have hnext : s.life.taken.length = before.length + 1 := by
      rw [htaken, List.length_append, List.length_singleton]
    refine ⟨?_, by omega, ?_⟩
    · rw [hids, htaken, List.map_append]
      exact List.prefix_append _ _
    · -- the last request has had its effect or not
      rcases hlast with hsame | ⟨now, heffect⟩
      · refine ⟨before.length, by omega, by omega, ?_⟩
        rw [htaken, List.take_left, hsame]
        exact hbefore
      · refine ⟨s.life.taken.length, by omega, Nat.le_refl _, ?_⟩
        rw [List.take_length, htaken]
        exact applied_concat.2 ⟨t₁, now, hbefore, heffect⟩

theorem getElem?_of_prefix {β : Type} {xs ys : List β} (h : xs <+: ys) {i : Nat} {x : β}
    (hx : xs[i]? = some x) : ys[i]? = some x := by
  obtain ⟨hi, rfl⟩ := List.getElem?_eq_some_iff.1 hx
  exact List.prefix_iff_getElem?.1 h i hi

/-- A call that keeps to what is due pairs requests and responses. -/
theorem Keeps.paired (h : P.Keeps answer bound inbound t₀ s k) : s.Paired P inbound t₀ := by
  obtain ⟨hids, htaken, htable⟩ := h.level
  refine ⟨fun i y hy => ?_, h.requests, h.delivered, ?_, htaken, htable⟩
  · -- from what is read to what is accepted, to what is taken, to what has arrived
    have haccepted := getElem?_of_prefix h.delivered.messages hy
    have hid : (s.life.stance.accepted.map P.respondent)[i]? = some (P.respondent y) := by
      rw [List.getElem?_map, haccepted, Option.map_some]
    have hsubject := getElem?_of_prefix hids hid
    rw [List.getElem?_map, Option.map_eq_some_iff] at hsubject
    obtain ⟨x, hx, heq⟩ := hsubject
    have hok : (s.life.taken.map (Except.ok : ι → Except Service.Status ι))[i]? = some (.ok x) := by
      rw [List.getElem?_map, hx, Option.map_some]
    have harrived := getElem?_of_prefix ⟨_, h.requests⟩ hok
    rw [List.getElem?_map, Option.map_eq_some_iff] at harrived
    obtain ⟨a, ha, hcontent⟩ := harrived
    exact ⟨a, x, ha, hcontent, heq.symm⟩
  · have hlength := hids.length_le
    rwa [List.length_map, List.length_map] at hlength

/-! ## §5. Ends. -/

/-- A calm call whose requests end normally does not end with a failure. -/
theorem Keeps.ended_ok {r : Except ServiceError Unit} {unsent : Option Service.Status}
    (h : P.Keeps answer bound inbound t₀ s k) (hregular : inbound.Regular) (hcalm : s.Calm)
    (hspot : s.life.spot = .ended r unsent) : r = .ok () := by
  have hstands := h.stands
  unfold StandsAt at hstands
  rw [hspot] at hstands
  cases hstands with
  | ended hexhausted h => rfl
  | failed hwhy h =>
    rcases hwhy with (hcancelled | ⟨how, hending, hhow⟩) | hout | ⟨cause, hcause⟩
    · cases hcancelled.symm.trans hcalm.uncancelled
    · exact absurd (hcalm.heard how hending) hhow
    · have hin := hcalm.admitted (by rw [hspot]; exact nofun)
      cases hin.symm.trans hout
    · -- no connection has failed
      obtain ⟨a, ha, hcontent⟩ := List.mem_map.1 hcause
      obtain ⟨x, hx⟩ := hregular.sound a ha
      cases hx.symm.trans hcontent

/-- The caller who has come to the end of a call that has not failed has got what is due. -/
theorem Keeps.complete {unsent : Option Service.Status} (h : P.Keeps answer bound inbound t₀ s k)
    (hspot : s.life.spot = .ended (.ok ()) unsent)
    (hclosed : s.life.stance.outbound.reader.ending = some .closed) : s.Complete P inbound t₀ := by
  have hstands := h.stands
  have hrequests := h.requests
  unfold StandsAt at hstands
  rw [hspot] at hstands
  cases hstands with
  | ended hexhausted heven =>
    rw [hexhausted.1, List.map_nil, List.append_nil] at hrequests
    exact ⟨s.life.taken, s.life.stance.accepted, hrequests.symm, hclosed,
      h.delivered.received hspot hclosed, heven.ids, heven.table⟩

theorem ended_of_runs {r : Except ServiceError Unit} (hruns : s.Runs s')
    (hspot : ∃ unsent, s.life.spot = .ended r unsent) : ∃ unsent, s'.life.spot = .ended r unsent := by
  induction hruns with
  | refl => exact hspot
  | tail _ hstep ih =>
    obtain ⟨unsent, h⟩ := ih
    obtain ⟨label, hlife, _⟩ := hstep
    exact hlife.ended h

/-- A calm call that is not at its end can go on. -/
theorem Keeps.progress (h : P.Keeps answer bound inbound t₀ s k) (hends : inbound.silent = false)
    (hcalm : s.Calm) (hopen : s.life.stance.outbound.reader.ending = none) :
    ∃ s', s.Step s' ∧ s'.Calm := by
  obtain ⟨l, t⟩ := s
  refine hcalm.progress hopen h.owed h.delivered fun stage hspot hthere hroom => ?_
  have hstands : P.StandsAt answer bound inbound t₀ l t k := h.stands
  unfold StandsAt at hstands
  rw [hspot] at hstands
  cases hstands with
  | awaiting heven => exact fun _ => h.silent.trans hends
  | handling hhandling => exact hhandling.progress hthere hroom
  | closing hexhausted heven => exact .inl ⟨_, rfl⟩

/-- A calm call whose requests end normally comes to its end. -/
theorem Keeps.inevitably (hmeets : P.Meets answer bound) (hregular : inbound.Regular)
    (h : P.Keeps answer bound inbound t₀ s k) (hcalm : s.Calm)
    (hopen : s.life.stance.outbound.reader.ending = none) :
    s.Inevitably (·.Complete P inbound t₀) := by
  -- what holds until the end, with what is still to do
  refine Alone.inevitably_of_weight
    (I := fun s n => s.Calm ∧ s.life.stance.outbound.reader.ending = none
      ∧ ∃ k, P.Keeps answer bound inbound t₀ s k ∧ n = weight bound s.life k)
    (fun s n hI => ?_) (fun s n hI _ s' hstep hcalm' => ?_) ⟨hcalm, hopen, k, h, rfl⟩
  · obtain ⟨hcalm, hopen, k, h, _⟩ := hI
    exact .inr (h.progress hregular.ends hcalm hopen)
  · obtain ⟨hcalm, hopen, k, h, rfl⟩ := hI
    obtain ⟨k', h', hweight⟩ := h.step hmeets hstep
    cases hending : s'.life.stance.outbound.reader.ending with
    | none => exact .inr ⟨_, hweight hcalm hcalm' hending, hcalm', rfl, k', h', rfl⟩
    | some how =>
      cases hcalm'.heard how hending
      obtain ⟨r, hspot⟩ := h'.delivered.shut hending
      cases h'.ended_ok hregular hcalm' hspot
      exact .inl (h'.complete hspot hending)

/-- A handler that makes one answer to each request, and changes nothing but what the request asks for,
pairs requests and responses strictly. -/
theorem Meets.pairsStrictly (hmeets : P.Meets answer bound) :
    (Handler.ofAnswers answer).PairsStrictly P where
  always served inbound capacity enough attentive t₀ s hruns := by
    obtain ⟨k, h⟩ :=
      (keeps_start P answer bound served inbound capacity enough attentive t₀).runs hmeets hruns
    exact h.paired
  complete served inbound capacity enough attentive t₀ s s' hregular hruns hcalm hended hruns'
      hclosed := by
    obtain ⟨k, h⟩ :=
      (keeps_start P answer bound served inbound capacity enough attentive t₀).runs hmeets hruns
    obtain ⟨r, unsent, hspot⟩ := hended
    cases h.ended_ok hregular hcalm hspot
    obtain ⟨unsent', hspot'⟩ := ended_of_runs hruns' ⟨unsent, hspot⟩
    obtain ⟨k', h'⟩ := h.runs hmeets hruns'
    exact h'.complete hspot' hclosed
  inevitable served inbound capacity enough attentive t₀ hregular :=
    (keeps_start P answer bound served inbound capacity enough attentive t₀).inevitably hmeets hregular
      ⟨rfl, nofun, nofun, fun hfresh => absurd rfl hfresh⟩ rfl
  executed manner cancelAt inbound context tie cancelled capacity enough attentive w w' t₀ e hchained
      hw hgoes := by
    have hstart := keeps_start P answer bound (decide (manner = .served)) inbound capacity enough
      attentive t₀
    obtain ⟨s, hruns, hshows⟩ := (Alone.shows_start hw (.ofAnswers answer) hchained cancelAt inbound
      context tie cancelled (.ofCapacity capacity ⟨enough, attentive, [], none⟩) rfl).goes hgoes
    obtain ⟨k, h⟩ := hstart.runs hmeets hruns
    refine ⟨s, hruns, hshows, fun state hphase hclosed => ?_, hshows.drop⟩
    have hphase' := hshows.call.phase
    rw [hphase] at hphase'
    obtain ⟨hstate, _, hspot⟩ := hphase'
    exact h.complete hspot (hstate.outbound ▸ hclosed)

end

end Pairing

end UserDirectory.Call
