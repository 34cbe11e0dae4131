import UserDirectory.Proofs.Call.Ending
/-!
# How calls end

What a call does that has its store for itself is one program from its beginning to its end, however
many requests it takes.  A call that comes to its end has done what that program does, with what has been
read of the clock on the way; and a call that is executed reads the clock of its world.

Main statements:
  * `Alone.Follows.step`, `Alone.Follows.does`: a call does what its program does;
  * `Alone.Follows.ends_of_calm`: how a call has ended that nothing has kept from its end;
  * `Alone.Inevitably.following`: what a call has done where it comes to inevitably;
  * `Alone.endsAt_of_goesBy`: how a call has ended that is executed.
-/

namespace UserDirectory.Call

open UserDirectory.Service (ServiceError Status)
open UserDirectory.Store (Table)
open UserDirectory.Time (Instant)

variable {ι ο σ α β : Type}

/-! ## §1. Handlers. -/

namespace Handler

/-- What a handler does with what arrives, one request after another. -/
def loop (h : Handler ι ο σ α) : List (Except Status ι) → σ → Action ο α
  | [], kept => ExceptT.mk (h.onEnd kept)
  | .ok x :: rest, kept => do
    let kept ← ExceptT.mk (h.onItem kept x)
    h.loop rest kept
  | .error cause :: _, _ => throw (inboundFailure cause)

/-- What a handler has still to do that has come so far. -/
def rest (h : Handler ι ο σ α) (contents : List (Except Status ι)) : Stage ο σ α → Action ο α
  | .awaiting kept => h.loop contents kept
  | .handling p => do
    let kept ← ExceptT.mk p
    h.loop contents kept
  | .closing p => ExceptT.mk p

/-- All that a handler does. -/
def whole (h : Handler ι ο σ α) (contents : List (Except Status ι)) : Action ο α :=
  h.rest contents h.start

end Handler

/-! ## §2. Calls. -/

namespace Alone

/-- How far a call has come with all that its handler does, from a table on, with what arrives and with
what has been read. -/
inductive Progress (h : Handler ι ο σ α) (contents : List (Except Status ι)) (t₀ : Table)
    (readings : List Instant) (l : Life ι ο σ α) (t : Table) : Spot ο σ α → Prop
  | fresh (harrivals : l.arrivals.map (·.content) = contents) (hreadings : readings = [])
      (htable : t = t₀) (haccepted : l.stance.accepted = []) (hout : l.admitted = false) :
      Progress h contents t₀ readings l t .fresh
  /-- whatever the rest comes to, the whole comes to as well -/
  | going {stage : Stage ο σ α}
      (hrest : ∀ hindered later more t' r, (l.stance.Hindered → hindered = true) →
        (h.rest (l.arrivals.map (·.content)) stage).EndsAt hindered later t more t' r →
        (h.whole contents).EndsAt hindered (readings ++ later) t₀ (l.stance.accepted ++ more) t' r) :
      Progress h contents t₀ readings l t (.going stage)
  | ended {r : Except ServiceError α} {unsent : Option Status}
      (hwhole : ∀ hindered, (l.stance.Hindered → hindered = true) →
        (h.whole contents).EndsAt hindered readings t₀ l.stance.accepted t r) :
      Progress h contents t₀ readings l t (.ended r unsent)
  /-- the chain has not let it through -/
  | denied {cause : ServiceError} {unsent : Option Status} (htable : t = t₀)
      (haccepted : l.stance.accepted = []) (hout : l.admitted = false) :
      Progress h contents t₀ readings l t (.ended (.error cause) unsent)
  /-- the call has been cancelled and given up where it stood -/
  | cut {unsent : Option Status} (hcancelled : l.stance.cancelled = true) :
      Progress h contents t₀ readings l t (.ended (.error .cancelled) unsent)
  | dropped : Progress h contents t₀ readings l t .dropped

section

variable {h : Handler ι ο σ α} {contents : List (Except Status ι)} {t₀ t t' : Table}
  {readings : List Instant} {l l' : Life ι ο σ α} {spot : Spot ο σ α}

/-- How far a call has come is not changed by what is paid, by what is read, or by being hindered. -/
theorem Progress.of_hindered (hp : Progress h contents t₀ readings l t spot)
    (harrivals : l'.arrivals = l.arrivals) (hadmitted : l'.admitted = l.admitted)
    (haccepted : l'.stance.accepted = l.stance.accepted)
    (hhindered : l.stance.Hindered → l'.stance.Hindered)
    (hcancelled : l.stance.cancelled = true → l'.stance.cancelled = true) :
    Progress h contents t₀ readings l' t spot := by
  cases hp with
  | fresh hsame hreadings htable hacc hout =>
    exact .fresh (harrivals ▸ hsame) hreadings htable (haccepted.trans hacc) (hadmitted.trans hout)
  | going hrest =>
    refine .going fun hindered later more t' r hb hends => ?_
    rw [harrivals] at hends
    rw [haccepted]
    exact hrest hindered later more t' r (fun hl => hb (hhindered hl)) hends
  | ended hwhole => exact .ended fun hindered hb => haccepted ▸ hwhole hindered fun hl => hb (hhindered hl)
  | denied htable hacc hout => exact .denied htable (haccepted.trans hacc) (hadmitted.trans hout)
  | cut hcut => exact .cut (hcancelled hcut)
  | dropped => exact .dropped

/-- How a call has ended does not depend on what is still to be sent. -/
theorem Progress.sent {r : Except ServiceError α} {unsent : Option Status}
    (hp : Progress h contents t₀ readings l t (.ended r unsent)) (unsent' : Option Status) :
    Progress h contents t₀ readings l t (.ended r unsent') := by
  cases hp with
  | ended hwhole => exact .ended hwhole
  | denied htable hacc hout => exact .denied htable hacc hout
  | cut hcut => exact .cut hcut

/-- A call goes on to where what is left to do is the same, or the end of what was left before. -/
theorem Progress.rest {stage stage' : Stage ο σ α}
    (hp : Progress h contents t₀ readings l t (.going stage)) (hsame : l'.stance = l.stance)
    (hrest : ∀ hindered later more t' r,
      (h.rest (l'.arrivals.map (·.content)) stage').EndsAt hindered later t more t' r →
      (h.rest (l.arrivals.map (·.content)) stage).EndsAt hindered later t more t' r) :
    Progress h contents t₀ readings l' t (.going stage') := by
  cases hp with
  | going hbefore =>
    refine .going fun hindered later more t' r hb hends => ?_
    rw [hsame] at hb ⊢
    exact hbefore hindered later more t' r hb (hrest hindered later more t' r hends)

/-- A call whose handler has nothing left to do ends as the handler does. -/
theorem Progress.finish {stage : Stage ο σ α} {r : Except ServiceError α}
    (hp : Progress h contents t₀ readings l t (.going stage))
    (hrest : ∀ hindered, (h.rest (l.arrivals.map (·.content)) stage).EndsAt hindered [] t [] t r)
    (millis : Nat) :
    Progress h contents t₀ readings (l.finish millis r) t (l.finish millis r).spot := by
  have ha := l.stance.close_alike millis (.ofResult r)
  cases hp with
  | going hbefore =>
    refine .ended fun hindered hb => ?_
    have hwhole := hbefore hindered [] [] t r (fun hl => hb (ha.hindered hl)) (hrest hindered)
    rw [List.append_nil, List.append_nil] at hwhole
    exact ha.accepted.symm ▸ hwhole

/-- A step of what is being done is a step of the whole. -/
theorem Progress.act {p p' : Program ο (Except ServiceError β)} {g : Stance ο} {label : Option Deed}
    {stage stage' : Stage ο σ α} (hp : Progress h contents t₀ readings l t (.going stage))
    (hact : p.Act l.stance label g p') (ht : Answers t label.toList t')
    (hopen : l.stance.outbound.reader.ending ≠ some .closed) {f : β → Action ο α}
    (hstage : h.rest (l.arrivals.map (·.content)) stage = (ExceptT.mk p >>= f : Action ο α))
    (hstage' : h.rest (l.arrivals.map (·.content)) stage' = (ExceptT.mk p' >>= f : Action ο α)) :
    Progress h contents t₀ (readings ++ label.toList.filterMap Deed.reading)
      { l with spot := .going stage', stance := g } t' (.going stage') := by
  cases hp with
  | going hbefore =>
    refine .going fun hindered later more t'' r hb hends => ?_
    -- what is left after the step is the end of the program and what comes after it
    have hends' : (h.rest (l.arrivals.map (·.content)) stage').EndsAt hindered later t' more t'' r := hends
    rw [hstage'] at hends'
    obtain ⟨first, before, t₁, b, second, after, hp', hf, rfl, rfl⟩ := Program.endsAt_bind.1 hends'
    obtain ⟨new, haccepted, hp⟩ := hact.endsAt ht hopen hb hp'
    have hwhole := hbefore hindered (label.toList.filterMap Deed.reading ++ (first ++ second))
      (new ++ (before ++ after)) t'' r (fun hl => hb (hact.hindered_after hl)) ?_
    · show (h.whole contents).EndsAt hindered _ t₀ (g.accepted ++ (before ++ after)) t'' r
      rw [haccepted, List.append_assoc, List.append_assoc]
      exact hwhole
    · rw [hstage, ← List.append_assoc, ← List.append_assoc]
      exact Program.endsAt_bind.2 ⟨_, new ++ before, t₁, b, second, after, hp, hf, rfl, rfl⟩

/-- How far a call has come after a step. -/
theorem Progress.step {label : Option Deed} (hhandler : l.handler = h)
    (howed : l.stance.AsksNothing) (hd : l.Delivered)
    (hp : Progress h contents t₀ readings l t l.spot) (hstep : l.Step label l')
    (ht : Answers t label.toList t') :
    Progress h contents t₀ (readings ++ label.toList.filterMap Deed.reading) l' t' l'.spot := by
  subst hhandler
  have hquiet : ∀ {l' spot}, Progress l.handler contents t₀ readings l' t spot →
      Progress l.handler contents t₀ (readings ++ []) l' t spot :=
    fun hp => (List.append_nil readings).symm ▸ hp
  cases hstep with
  | @pay d more hdue =>
    -- what is owed belongs to the chain, which asks neither the store nor the clock
    have hnone : [d].filterMap Deed.reading = [] := List.filterMap_cons_none (howed.reading_eq_none hdue)
    cases (answers_iff_eq hnone).1 ht
    rw [show (some d).toList.filterMap Deed.reading = [] from hnone]
    exact hquiet (hp.of_hindered rfl rfl rfl id id)
  | drift hdrift =>
    cases ht
    refine hquiet (hp.of_hindered rfl rfl ?_ hdrift.hindered ?_)
    · cases hdrift <;> rfl
    · cases hdrift with
      | cancel hstill => exact fun _ => rfl
      | _ => exact id
  | begin hfree hspot =>
    cases ht
    rw [hspot] at hp
    cases hp with
    | fresh harrivals hreadings htable haccepted hout =>
      refine hquiet (.going fun hindered later more t' r _ hends => ?_)
      show (l.handler.whole contents).EndsAt hindered (readings ++ later) t₀ (l.stance.accepted ++ more) t' r
      rw [hreadings, haccepted, ← htable, ← harrivals]
      exact hends
  | deny hfree hspot cause millis =>
    cases ht
    rw [hspot] at hp
    cases hp with
    | fresh harrivals hreadings htable haccepted hout =>
      have ha := l.stance.begin_alike.trans (l.stance.begin.close_alike millis (.failed cause))
      exact hquiet (.denied htable (ha.accepted.trans haccepted) hout)
  | handle hfree hspot hact =>
    rw [hspot] at hp
    exact hp.act hact ht (hd.untold (.inr ⟨_, hspot⟩)).2 rfl rfl
  | @close p p' _ g hfree hspot hact =>
    rw [hspot] at hp
    -- nothing comes after what is left at the end
    exact hp.act (f := pure) hact ht (hd.untold (.inr ⟨_, hspot⟩)).2
      (bind_pure (ExceptT.mk p : Action ο α)).symm (bind_pure (ExceptT.mk p' : Action ο α)).symm
  -- what is left to do is the same before and after, as the loop over the requests is unfolded
  | take hfree hspot harrivals
  | exhaust hfree hspot harrivals hsilent =>
    cases ht
    rw [hspot] at hp
    refine hquiet (hp.rest rfl fun hindered later more t' r hends => ?_)
    rw [harrivals]
    exact hends
  | answered hfree hspot =>
    cases ht
    rw [hspot] at hp
    exact hquiet (hp.rest rfl fun hindered later more t' r hends => hends)
  | breakOff hfree hspot harrivals millis =>
    -- the connection has failed, which is all that is left to tell
    cases ht
    rw [hspot] at hp
    refine hquiet (hp.finish (fun hindered => ?_) millis)
    rw [harrivals]
    exact ⟨rfl, rfl, rfl, rfl⟩
  | failed hfree hspot millis
  | finish hfree hspot millis =>
    cases ht
    rw [hspot] at hp
    exact hquiet (hp.finish (fun hindered => ⟨rfl, rfl, rfl, rfl⟩) millis)
  | stopTaking hfree hspot hcancelled millis =>
    exact .cut ((l.stance.close_alike millis _).cancelled.trans hcancelled)
  | cut hfree hspot hcancelled times htimes millis =>
    exact .cut (((l.stance.abandon_alike times).trans
      ((l.stance.abandon times).close_alike millis _)).cancelled.trans hcancelled)
  | drop hfree hspot times htimes => exact .dropped
  | tellFailure hfree hspot hthere
  | tellNobody hfree hspot hgone =>
    cases ht
    rw [hspot] at hp
    exact hquiet ((hp.sent none).of_hindered rfl rfl rfl id id)
  | shut hfree hspot hthere hread =>
    -- a caller who stops at the end has not left before it
    cases ht
    refine hquiet (hp.of_hindered rfl rfl rfl ?_ id)
    rintro (hcancelled | ⟨how, hending, _⟩)
    · exact .inl hcancelled
    · cases (Outbound.readerGone_eq_false_iff.1 hthere).symm.trans hending

end

/-- A call that does what its handler does, from a table on, with what arrives and with what has been
read. -/
structure Follows (h : Handler ι ο σ α) (contents : List (Except Status ι)) (t₀ : Table)
    (readings : List Instant) (s : Alone ι ο σ α) : Prop where
  handler : s.life.handler = h
  owed : s.life.stance.AsksNothing
  delivered : s.life.Delivered
  progress : Progress h contents t₀ readings s.life s.table s.life.spot

section

variable {h : Handler ι ο σ α} {contents : List (Except Status ι)} {t₀ : Table} {readings : List Instant}
  {s s' : Alone ι ο σ α} {deeds : List Deed}

theorem follows_start (h : Handler ι ο σ α) (served : Bool) (inbound : Inbound ι) (capacity : Nat)
    (enough : Option Nat) (attentive : Bool) (t₀ : Table) :
    (start h served inbound (.ofCapacity capacity ⟨enough, attentive, [], none⟩) t₀).Follows h
      (inbound.arrivals.map (·.content)) t₀ [] where
  handler := rfl
  owed _ hd := absurd hd List.not_mem_nil
  delivered := Life.delivered_start _ _ _ _ _ _
  progress := .fresh rfl rfl rfl rfl rfl

theorem Follows.step {label : Option Deed} (hs : s.Follows h contents t₀ readings)
    (hstep : s.life.Step label s'.life) (ht : Answers s.table label.toList s'.table) :
    s'.Follows h contents t₀ (readings ++ label.toList.filterMap Deed.reading) :=
  ⟨hstep.kin.handler.trans hs.handler, hstep.asksNothing hs.owed, hstep.delivered hs.delivered,
    hs.progress.step hs.handler hs.owed hs.delivered hstep ht⟩

theorem Follows.does (hs : s.Follows h contents t₀ readings) (hdoes : s.Does deeds s') :
    s'.Follows h contents t₀ (readings ++ deeds.filterMap Deed.reading) := by
  refine Does.keeps (I := fun done => Follows h contents t₀ (readings ++ done.filterMap Deed.reading))
    ?_ [] ?_ hdoes
  · intro done label s s' hs hstep ht
    rw [List.filterMap_append, ← List.append_assoc]
    exact hs.step hstep ht
  · exact (List.append_nil readings).symm ▸ hs

/-- A call that has ended without a failure has done all that its handler does. -/
theorem Follows.ends_of_ok {a : α} {unsent : Option Status} (hs : s.Follows h contents t₀ readings)
    (hspot : s.life.spot = .ended (.ok a) unsent) :
    (h.whole contents).EndsAt true readings t₀ s.life.stance.accepted s.table (.ok a) := by
  have hp := hs.progress
  rw [hspot] at hp
  cases hp with
  | ended hwhole => exact hwhole true fun _ => rfl

/-- So has a call that has ended and that nothing has kept from its end; and it has done so unhindered. -/
theorem Follows.ends_of_calm {r : Except ServiceError α} {unsent : Option Status}
    (hs : s.Follows h contents t₀ readings) (hcalm : s.Calm)
    (hspot : s.life.spot = .ended r unsent) :
    (h.whole contents).EndsAt false readings t₀ s.life.stance.accepted s.table r := by
  have hp := hs.progress
  rw [hspot] at hp
  cases hp with
  | ended hwhole =>
    refine hwhole false ?_
    rintro (hcancelled | ⟨how, hending, hhow⟩)
    · cases hcancelled.symm.trans hcalm.uncancelled
    · exact absurd (hcalm.heard how hending) hhow
  | denied htable haccepted hout =>
    cases hout.symm.trans (hcalm.admitted (by rw [hspot]; exact nofun))
  | cut hcancelled => cases hcancelled.symm.trans hcalm.uncancelled

/-- Where a call comes to inevitably, all that holds of it which every step of a calm call keeps. -/
theorem Inevitably.within {Q I R : Alone ι ο σ α → Prop} (hQ : s.Inevitably Q) (hI : I s)
    (hkeep : ∀ s s', I s → s.Step s' → s'.Calm → I s') (hR : ∀ s, Q s → I s → R s) :
    s.Inevitably R := by
  induction hQ with
  | now h => exact .now (hR _ h hI)
  | later hcan _ ih =>
    exact .later hcan fun s' hstep hcalm => ih s' hstep hcalm (hkeep _ s' hI hstep hcalm)

theorem Inevitably.mono {Q R : Alone ι ο σ α → Prop} (hQ : s.Inevitably Q) (hR : ∀ s, Q s → R s) :
    s.Inevitably R :=
  hQ.within (I := fun _ => True) trivial (fun _ _ _ _ _ => trivial) fun s h _ => hR s h

/-- Where a calm call comes to inevitably, it has done until then what its handler does. -/
theorem Inevitably.following {Q R : Alone ι ο σ α → Prop} (hQ : s.Inevitably Q) (hcalm : s.Calm)
    (hs : s.Follows h contents t₀ readings)
    (hR : ∀ s readings, Q s → s.Calm → s.Follows h contents t₀ readings → R s) : s.Inevitably R := by
  refine hQ.within (I := fun s => s.Calm ∧ ∃ readings, s.Follows h contents t₀ readings)
    ⟨hcalm, readings, hs⟩ ?_ ?_
  · rintro s s' ⟨_, readings, hs⟩ ⟨label, hstep, ht⟩ hcalm
    exact ⟨hcalm, _, hs.step hstep ht⟩
  · rintro s hq ⟨hcalm, readings, hs⟩
    exact hR s readings hq hcalm hs

/-- A call that is executed in a world that nobody else writes to, and that has ended without a failure,
has done all that its handler does, with what the clock of that world has shown; the caller reads what has
been sent. -/
theorem endsAt_of_goesBy {w w' : World} {e : Exchange ι ο σ α} {a : α} {state : CallState ο}
    {shown : List (Instant × Instant)} (hw : w.Holds t₀) (h : Handler ι ο σ α) {manner : Manner}
    (hchained : manner ≠ .bare) (cancelAt : Option Nat) (inbound : Inbound ι) (context : Context)
    (tie : Tie) (cancelled : Bool) (capacity : Nat) (enough : Option Nat) (attentive : Bool)
    (hgoes : Exchange.GoesBy (.start manner cancelAt (.start h inbound
      { CallState.start context tie (.ofCapacity capacity ⟨enough, attentive, [], none⟩) w.clock with
        cancelled }), w) shown (e, w'))
    (hphase : e.phase = .ended (.ok a) state) :
    ∃ readings sent t', ReadIn shown readings ∧ w'.Holds t'
      ∧ (h.whole (inbound.arrivals.map (·.content))).EndsAt true readings t₀ sent t' (.ok a)
      ∧ state.outbound.reader.messages <+: sent
      ∧ (state.outbound.reader.ending = some .closed →
          state.outbound.reader.received = sent.map .ok) := by
  obtain ⟨deeds, s, hdoes, hread, hshows⟩ := (shows_start hw h hchained cancelAt inbound context tie
    cancelled (.ofCapacity capacity ⟨enough, attentive, [], none⟩) rfl).goesBy hgoes
  have hs := (follows_start h (decide (manner = .served)) inbound capacity enough attentive t₀).does
    hdoes
  have hphase' := hshows.call.phase
  rw [hphase] at hphase'
  obtain ⟨hstate, _, hspot⟩ := hphase'
  -- the channel of the executed call is that of the life it shows
  rw [← hstate.outbound]
  exact ⟨_, _, s.table, hread, hshows.table, hs.ends_of_ok hspot, hs.delivered.messages,
    hs.delivered.received hspot⟩

end

end Alone

end UserDirectory.Call
