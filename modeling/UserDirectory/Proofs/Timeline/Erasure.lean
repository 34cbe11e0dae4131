import UserDirectory.Proofs.Access.Gate
import UserDirectory.Proofs.Telemetry.Metrics
import UserDirectory.Proofs.Timeline.Unheeded
/-!
# Calls that are not let through

Requests come to a server one after another, each at its own time on the wall, and nobody changes in
between who is let through.  A request that is not let through is answered by one status and counted as
one failure; apart from that it might as well not have come.

Main statements:
  * `call_of_refused`: what becomes of a call that is not let through, whatever its handler is;
  * `call_of_admitted`: a call that is let through is its handler's, and has its caller's claims;
  * `serves_handler`: the handler is the one that the full name stands for;
  * `refused_visits_erased`: the others and the store cannot tell whether such calls have come.
-/

namespace UserDirectory.Timeline

open UserDirectory.Access (Claims)
open UserDirectory.Call
open UserDirectory.Service (Method Request ServiceError Status)
open UserDirectory.Telemetry (Metrics)
open UserDirectory.Time (Duration Instant)

section Calls

variable {ι ο σ α : Type}

/-! ## §1. A call that is not let through. -/

/-- What a caller has read who had not read anything before and is told why the call failed.  Only a
caller who wants nothing reads nothing. -/
def toldReader (enough : Option Nat) (attentive : Bool) (status : Status) : Reader ο :=
  if enough = some 0 then ⟨enough, attentive, [], some .dropped⟩
  else ⟨enough, attentive, [.error status], some .closed⟩

/-- The caller is there, there is room, and the status is read. -/
theorem read_status (ο : Type) (capacity : Nat) (enough : Option Nat) (attentive : Bool) (status : Status) :
    let o : Outbound ο := .ofCapacity capacity ⟨enough, attentive, [], none⟩
    o.makeRoom = o ∧ o.readerGone = false
      ∧ ((o.push (.error status)).read true).reader = toldReader enough attentive status
      ∧ ((o.push (.error status)).read true).readerGone = true := by
  intro o
  have hroom : o.hasRoom = true := by
    show decide (0 < max capacity 1) = true
    rw [decide_eq_true_eq]
    omega
  refine ⟨?_, rfl, ?_⟩
  · unfold Outbound.makeRoom
    rw [hroom]
    rfl
  · cases enough with
    | none => exact ⟨rfl, rfl⟩
    | some n =>
      cases n with
      | zero => exact ⟨rfl, rfl⟩
      | succ n => exact ⟨rfl, rfl⟩

/-- The state of a call at its start, whose caller has not read anything yet. -/
def fresh (ο : Type) (context : Context) (capacity : Nat) (enough : Option Nat) (attentive : Bool)
    (now : Nat) : CallState ο :=
  .start context .shutdown (.ofCapacity capacity ⟨enough, attentive, [], none⟩) now

/-- A call through the server of any handler. -/
def begun (h : Handler ι ο σ α) (i : Inbound ι) (context : Context) (capacity : Nat)
    (enough : Option Nat) (attentive : Bool) (now : Nat) : Exchange ι ο σ α :=
  .start .served none (.start h i (fresh ο context capacity enough attentive now))

variable {g : Gate} {t : Timeline} {h : Handler ι ο σ α} {i : Inbound ι} {context : Context}
  {capacity : Nat} {enough : Option Nat} {attentive : Bool} {now patience : Nat} {w : World}

/-- A call that is not let through ends with why, which is sent to the caller. -/
theorem work_of_refused {e : ServiceError} {w' : World}
    (henter : (fresh ο context capacity enough attentive now).enter w
      = (some e, w', fresh ο context capacity enough attentive now)) :
    ∃ s, (begun h i context capacity enough attentive now).work w
        = (⟨.served, none, false, .ended (.error e) s⟩, w')
      ∧ s.outbound
        = (Outbound.ofCapacity capacity ⟨enough, attentive, [], none⟩).push (.error e.status) := by
  obtain ⟨hroom, hgone, _, _⟩ := read_status ο capacity enough attentive e.status
  refine ⟨{ fresh ο context capacity enough attentive now with
      outbound := (Outbound.ofCapacity capacity ⟨enough, attentive, [], none⟩).push
        (.error e.status) }, ?_, rfl⟩
  unfold Exchange.work begun Exchange.start Running.start Running.enter
  simp only [henter]
  unfold Exchange.conclude Exchange.deliver fresh CallState.start
  simp only [hroom, hgone]
  rfl

/-- A call that is not let through ends at once, and its caller reads why. -/
theorem settle_of_refused {e : ServiceError} {w' : World}
    (henter : (fresh ο context capacity enough attentive now).enter w
      = (some e, w', fresh ο context capacity enough attentive now)) :
    ∃ s, (begun h i context capacity enough attentive now).settle w
        = (⟨.served, none, false, .ended (.error e) s⟩, w')
      ∧ s.outbound.reader = toldReader enough attentive e.status := by
  obtain ⟨s, hwork, hout⟩ := work_of_refused (h := h) (i := i) henter
  obtain ⟨_, _, hreader, hleft⟩ := read_status ο capacity enough attentive e.status
  have hread : (⟨.served, none, false, .ended (.error e) s⟩ : Exchange ι ο σ α).read
      = ⟨.served, none, false, .ended (.error e)
          { s with outbound := s.outbound.read true, cancelled := true }⟩ := by
    unfold Exchange.read
    simp only
    rw [if_pos ⟨rfl, by rw [← hout] at hleft; exact hleft⟩]
    rfl
  refine ⟨{ s with outbound := s.outbound.read true, cancelled := true }, ?_, ?_⟩
  · have hdue : (begun h i context capacity enough attentive now).cancelWhenDue w.clock
        = (begun h i context capacity enough attentive now : Exchange ι ο σ α) := rfl
    unfold Exchange.settle Exchange.turn
    rw [hdue, hwork]
    simp only [hread]
    rfl
  · rw [hout]
    exact hreader

/-- What becomes of a call that is not let through: it depends neither on the handler nor on the
stream of requests, and the store is as it was unless the snapshot is refreshed right after. -/
theorem call_of_refused (ο : Type) (capacity : Nat) (enough : Option Nat) (attentive : Bool)
    (now patience : Nat) {e : ServiceError} (hg : t.world.gate = some g)
    (hjudge : g.judge context.metadata t.world.second context.method = .error e) :
    ∃ w', World.Alike (some g) t.shutDownWhenDue.world w'
      ∧ w'.metrics = t.world.metrics.record context.method (Duration.ofMillis 0) true
      ∧ ∀ (ι σ α : Type) (h : Handler ι ο σ α) (i : Inbound ι),
        t.call (begun h i context capacity enough attentive now) patience
          = (⟨some (.error e), toldReader enough attentive e.status, false⟩,
            ({ t.shutDownWhenDue with world := w' } : Timeline).refreshWhenDue) := by
  obtain ⟨hclock, hgate, hwall, _, hmetrics, _⟩ := shutDownWhenDue_cases t
  have hsecond : t.shutDownWhenDue.world.second = t.world.second := by
    unfold World.second
    rw [hwall]
  obtain ⟨w', henter, halike, hcounted⟩ := CallState.enter_of_refused
    (s := fresh ο context capacity enough attentive now) (hgate.trans hg) rfl rfl (by rw [hsecond]; exact hjudge)
  refine ⟨w', halike, by rw [hcounted, hmetrics]; rfl, fun ι σ α h i => ?_⟩
  obtain ⟨s, hsettle, hreader⟩ := settle_of_refused (h := h) (i := i) henter
  -- to wait for nothing leaves the clock where it is
  have hdone : settle calling (begun h i context capacity enough attentive now)
      (t.mapWorld fun w => { w with clock := t.world.clock })
      = (⟨.served, none, false, .ended (.error e) s⟩,
        ({ t.shutDownWhenDue with world := w' } : Timeline).refreshWhenDue) := by
    show settle calling _ t = _
    unfold settle calling
    simp only [hsettle]
  unfold call runFor run
  rw [hdone]
  show (Exchange.report ⟨.served, none, false, .ended (.error e) s⟩, _) = _
  rw [← hreader]
  rfl

/-! ## §2. A call that is let through. -/

theorem conclude_mk_phase (e : Exchange ι ο σ α) (r : Except ServiceError α) (s : CallState ο)
    (w : World) (phase : Phase ι ο σ α) :
    ({ e with phase } : Exchange ι ο σ α).conclude r s w = e.conclude r s w := by
  obtain ⟨manner, cancelAt, entered, _⟩ := e
  cases manner <;> cases r <;> rfl

/-- What a call does when it is looked at does not depend on where it was before. -/
theorem look_mk_phase (e : Exchange ι ο σ α) (c : Running ι ο σ α) (w : World)
    (phase : Phase ι ο σ α) : ({ e with phase } : Exchange ι ο σ α).look c w = e.look c w := by
  unfold Exchange.look
  simp only
  cases (if e.manner = .bare then c.work w else c.poll w) with
  | mk polled w =>
    cases polled with
    | waiting c => rfl
    | ended r s =>
      exact (conclude_mk_phase { e with entered := e.entered || e.letsWork c.state _ } r s w phase)

/-- The call of a handler from its start, by a caller whose claims are known. -/
def running (h : Handler ι ο σ α) (i : Inbound ι) (context : Context) (capacity : Nat)
    (enough : Option Nat) (attentive : Bool) (now : Nat) (claims : Claims) : Running ι ο σ α :=
  ⟨h, h.start, i, { fresh ο context capacity enough attentive now with
    claims := some claims, passes := [now] }⟩

/-- A call that is let through goes on as the call of its handler from its start, and has the claims
of its caller. -/
theorem settle_of_admitted (capacity : Nat) (enough : Option Nat) (attentive : Bool)
    {claims : Claims} (hg : w.gate = some g) (hnow : w.clock = now)
    (hjudge : g.judge context.metadata w.second context.method = .ok claims) :
    ∃ w', World.Alike (some g) w w'
      ∧ (begun h i context capacity enough attentive now).settle w
        = (⟨.served, none, false, .running
            (running h i context capacity enough attentive now claims)⟩ : Exchange ι ο σ α).settle
              w' := by
  obtain ⟨w', henter, halike⟩ := CallState.enter_of_admitted
    (s := fresh ο context capacity enough attentive now) hg rfl hjudge
  rw [hnow] at henter
  refine ⟨w', halike, ?_⟩
  have hwork : (begun h i context capacity enough attentive now).work w
      = (⟨.served, none, false, .running
          (running h i context capacity enough attentive now claims)⟩ : Exchange ι ο σ α).work w' := by
    have hentered : (Running.start h i (fresh ο context capacity enough attentive now)).enter w
        = (none, running h i context capacity enough attentive now claims, w') := by
      unfold Running.enter Running.start
      rw [henter]
      rfl
    unfold Exchange.work begun Exchange.start
    simp only [hentered]
    exact (look_mk_phase _ _ _ _).symm
  have hdue : (begun h i context capacity enough attentive now).cancelWhenDue w.clock
      = (begun h i context capacity enough attentive now : Exchange ι ο σ α) := rfl
  unfold Exchange.settle Exchange.turn
  rw [hdue, hwork]
  rfl

/-- What becomes of a call that is let through is what becomes of the call of its handler. -/
theorem call_of_admitted (context : Context) (capacity : Nat) (enough : Option Nat) (attentive : Bool) (patience : Nat)
    {claims : Claims} (hg : t.world.gate = some g)
    (hjudge : g.judge context.metadata t.world.second context.method = .ok claims) :
    ∃ w', World.Alike (some g) t.shutDownWhenDue.world w'
      ∧ t.call (begun h i context capacity enough attentive t.world.clock) patience
        = ({ t.shutDownWhenDue with world := w' } : Timeline).call ⟨.served, none, false, .running
            (running h i context capacity enough attentive t.world.clock claims)⟩ patience := by
  obtain ⟨hclock, hgate, hwall, _, _, _⟩ := shutDownWhenDue_cases t
  have hsecond : t.shutDownWhenDue.world.second = t.world.second := by
    unfold World.second
    rw [hwall]
  obtain ⟨w', halike, hsettle⟩ := settle_of_admitted (h := h) (i := i) capacity enough attentive
    (hgate.trans hg) hclock (by rw [hsecond]; exact hjudge)
  have hclock' : w'.clock = t.world.clock := halike.clock.trans hclock
  refine ⟨w', halike, ?_⟩
  -- what was due has been done, so that nothing is due any more
  have hsettled : ({ t.shutDownWhenDue with world := w' } : Timeline).shutDownWhenDue
      = { t.shutDownWhenDue with world := w' } := by
    refine shutDownWhenDue_of_not_due ?_
    show t.shutDownWhenDue.shutdowns.any (· ≤ w'.clock) = false
    rw [hclock']
    exact not_due_shutDownWhenDue t
  have hfirst : settle calling (begun h i context capacity enough attentive t.world.clock)
      (t.mapWorld fun w => { w with clock := t.world.clock })
      = settle calling ⟨.served, none, false, .running
          (running h i context capacity enough attentive t.world.clock claims)⟩
        (({ t.shutDownWhenDue with world := w' } : Timeline).mapWorld
          fun w => { w with clock := w'.clock }) := by
    show settle calling _ t = settle calling _ { t.shutDownWhenDue with world := w' }
    unfold settle calling
    rw [hsettled]
    simp only [hsettle]
  unfold call runFor run
  rw [hfirst, ← hclock']

/-- Lets the handler of a call go on, and ends the call with its handler. -/
def goOn (c : Running ι ο σ α) (w : World) : Poll ι ο σ α × World :=
  match c.work w with
  | (.waiting c, w) => (.waiting c, w)
  | (.ended r s, w) => Running.endWith r s w

/-- A call that goes on and is neither cancelled nor late does what its handler does. -/
theorem poll_of_live {c : Running ι ο σ α} (hcancelled : c.state.isCancelled w = false)
    (hoverdue : c.state.isOverdue w = false) : c.poll w = goOn c w := by
  unfold Running.poll
  rw [hcancelled, hoverdue]
  rfl

end Calls

/-! ## §3. One request after another. -/

variable {g : Gate} {t : Timeline}

/-- A request that someone sends to the server, and how they wait for what becomes of it. -/
structure Visit where
  request : Request
  metadata : Option Metadata
  /-- the time on the wall when the request comes -/
  wall : Instant
  /-- for how many responses there is room -/
  capacity : Nat
  /-- how many messages are enough, if there is an enough -/
  enough : Option Nat
  /-- whether the responses are read as soon as there is no room for another -/
  attentive : Bool
  /-- the milliseconds that the caller waits -/
  patience : Nat

namespace Visit

/-- The channel to the caller, who has not read anything. -/
def channel (v : Visit) : Channel v.request := .ofCapacity v.capacity ⟨v.enough, v.attentive, [], none⟩

/-- The timeline when the request comes. -/
def arrive (v : Visit) (t : Timeline) : Timeline := t.mapWorld fun w => { w with wall := v.wall }

/-- Sends the request and waits. -/
def pay (v : Visit) (t : Timeline) : Answer v.request × Timeline :=
  (v.arrive t).serve v.request v.metadata v.channel v.patience

/-- What is known of the call at its start. -/
def context (v : Visit) : Context := (v.request.context v.metadata).withMetadataTimeout

/-- What a gate says about the request: the claims of its caller, or why not. -/
def judged (v : Visit) (g : Gate) : Except ServiceError Claims :=
  g.judge v.metadata (Int64.ofInt v.wall.seconds) v.request.method.fullName

/-- Whether a gate lets the request through. -/
def isAdmitted (g : Gate) (v : Visit) : Bool := (v.judged g).isOk

/-- A timeout has nothing to do with who calls what. -/
theorem context_eq (v : Visit) :
    v.context.metadata = v.metadata ∧ v.context.method = v.request.method.fullName := by
  unfold context Context.withMetadataTimeout
  split <;> exact ⟨rfl, rfl⟩

end Visit

/-- Sends some requests one after another: the answer to each, and the time after that. -/
def payAll : List Visit → Timeline → List (Σ v : Visit, Answer v.request) × Timeline
  | [], t => ([], t)
  | v :: more, t =>
    let (answer, t) := v.pay t
    let (answers, t) := payAll more t
    (⟨v, answer⟩ :: answers, t)

/-- Two timelines that are alike whenever the next request comes. -/
def AlikeForNext (g : Gate) (t t' : Timeline) : Prop :=
  ∀ v : Visit, SoonAlike (some g) (v.arrive t) (v.arrive t')

theorem AlikeForNext.trans {t' t'' : Timeline} (h : AlikeForNext g t t') (h' : AlikeForNext g t' t'') :
    AlikeForNext g t t'' :=
  fun v => (h v).trans (h' v)

theorem AlikeForNext.symm {t' : Timeline} (h : AlikeForNext g t t') : AlikeForNext g t' t :=
  fun v => (h v).symm

theorem AlikeForNext.refl (hg : t.world.gate = some g) (hr : t.refresher = none) :
    AlikeForNext g t t :=
  fun _ => Alike.soon ⟨.refl hg, rfl, hr, hr⟩

theorem Alike.forNext {t' : Timeline} (h : Alike (some g) t t') : AlikeForNext g t t' :=
  fun v => (h.setWall v.wall).soon

/-- Those whom a gate does not let through are told one of two things. -/
theorem Visit.exists_error_of_not_admitted {v : Visit} (h : v.isAdmitted g = false) :
    ∃ e, v.judged g = .error e
      ∧ (e.status.code = .unauthenticated ∨ e.status.code = .permissionDenied) := by
  unfold isAdmitted at h
  cases hjudge : v.judged g with
  | ok claims =>
    rw [hjudge] at h
    cases h
  | error e =>
    refine ⟨e, rfl, ?_⟩
    show e.kind.code = _ ∨ e.kind.code = _
    rcases Gate.judge_error_kind hjudge with hkind | hkind
    · exact .inl (by rw [hkind]; rfl)
    · exact .inr (by rw [hkind]; rfl)

/-- What becomes of a request that is not let through. -/
theorem pay_of_refused {v : Visit} {e : ServiceError} (hg : t.world.gate = some g)
    (hr : t.refresher = none) (hjudge : v.judged g = .error e) :
    (v.pay t).1 = ⟨some (.error e), toldReader v.enough v.attentive e.status, false⟩
      ∧ AlikeForNext g t (v.pay t).2
      ∧ (v.pay t).2.world.metrics
        = t.world.metrics.record v.request.method.fullName (Duration.ofMillis 0) true
      ∧ ∀ (ι σ α : Type) (h : Handler ι v.request.method.Response σ α) (i : Inbound ι),
          (v.arrive t).call (begun h i v.context v.capacity v.enough v.attentive t.world.clock)
              v.patience
            = (⟨some (.error e), toldReader v.enough v.attentive e.status, false⟩, (v.pay t).2) := by
  obtain ⟨hmetadata, hmethod⟩ := v.context_eq
  have hjudge' : g.judge v.context.metadata (v.arrive t).world.second v.context.method
      = .error e := by
    rw [hmetadata, hmethod]
    exact hjudge
  obtain ⟨w', halike, hmetrics, hcall⟩ := call_of_refused (t := v.arrive t)
    v.request.method.Response v.capacity v.enough v.attentive t.world.clock v.patience hg hjudge'
  have hrefresher := (shutDownWhenDue_cases (v.arrive t)).2.2.2.2.2.trans hr
  rw [refreshWhenDue_of_none (t := { (v.arrive t).shutDownWhenDue with world := w' }) hrefresher]
    at hcall
  have hpay : v.pay t = (⟨some (.error e), toldReader v.enough v.attentive e.status, false⟩,
      { (v.arrive t).shutDownWhenDue with world := w' }) :=
    hcall _ _ _ v.request.handler v.request.inbound
  rw [hpay]
  refine ⟨rfl, fun next => ?_, by rw [hmetrics, hmethod]; rfl, hcall⟩
  have hsoon : SoonAlike (some g) (v.arrive t) { (v.arrive t).shutDownWhenDue with world := w' } :=
    (SoonAlike.of_shutDownWhenDue (t := v.arrive t) hg hr).trans
      (Alike.soon ⟨halike, rfl, hrefresher, hrefresher⟩)
  exact hsoon.setWall next.wall

/-- Timelines that are alike stay so when a request comes, and its answer is the same. -/
theorem pay_alike {t' : Timeline} (h : AlikeForNext g t t') (v : Visit) :
    (v.pay t').1 = (v.pay t).1 ∧ AlikeForNext g (v.pay t).2 (v.pay t').2 := by
  have hclock : t'.world.clock = t.world.clock := (h v).clock
  obtain ⟨answer, t₁, t₁', hx, hy, h₁⟩ := call_alike (h v)
    (served v.request v.metadata v.channel t.world.clock) v.patience
  have hpay : v.pay t = (answer, t₁) := hx
  have hpay' : v.pay t' = (answer, t₁') := by
    rw [← hclock] at hy
    exact hy
  rw [hpay, hpay']
  exact ⟨rfl, h₁.forNext⟩

/-- After a request the gate is the same, and nobody refreshes. -/
theorem pay_keeps (v : Visit) (hg : t.world.gate = some g) (hr : t.refresher = none) :
    (v.pay t).2.world.gate = some g ∧ (v.pay t).2.refresher = none := by
  have hself := (pay_alike (AlikeForNext.refl hg hr) v).2 v
  obtain ⟨_, hgate, _, _, _, hrefresher⟩ := shutDownWhenDue_cases (v.arrive (v.pay t).2)
  exact ⟨hgate.symm.trans hself.world.1, hrefresher.symm.trans hself.unrefreshed⟩

/-- The answers of those who are let through, and the time after that, are the same without the
others. -/
theorem payAll_erase (vs : List Visit) {t' : Timeline} (h : AlikeForNext g t t')
    (hg : t.world.gate = some g) (hr : t.refresher = none) :
    (payAll vs t).1.filter (fun a => a.1.isAdmitted g)
        = (payAll (vs.filter (Visit.isAdmitted g)) t').1
      ∧ AlikeForNext g (payAll vs t).2 (payAll (vs.filter (Visit.isAdmitted g)) t').2 := by
  induction vs generalizing t t' with
  | nil => exact ⟨rfl, h⟩
  | cons v more ih =>
    have hnext := pay_keeps v hg hr
    have hcons : payAll (v :: more) t
        = (⟨v, (v.pay t).1⟩ :: (payAll more (v.pay t).2).1, (payAll more (v.pay t).2).2) := rfl
    rw [hcons]
    cases hv : v.isAdmitted g with
    | true =>
      -- the request comes in both sequences, at times that are alike
      obtain ⟨hanswer, halike⟩ := pay_alike h v
      obtain ⟨hanswers, hend⟩ := ih halike hnext.1 hnext.2
      rw [List.filter_cons_of_pos hv]
      have hcons' : payAll (v :: more.filter (Visit.isAdmitted g)) t'
          = (⟨v, (v.pay t').1⟩ :: (payAll (more.filter (Visit.isAdmitted g)) (v.pay t').2).1,
            (payAll (more.filter (Visit.isAdmitted g)) (v.pay t').2).2) := rfl
      rw [hcons', hanswer, ← hanswers, List.filter_cons_of_pos (by exact hv)]
      exact ⟨rfl, hend⟩
    | false =>
      -- it comes only in the first one, and the time after it is like the time before
      obtain ⟨e, hjudge, _⟩ := v.exists_error_of_not_admitted hv
      obtain ⟨_, halike, _, _⟩ := pay_of_refused hg hr hjudge
      rw [List.filter_cons_of_neg (by rw [hv]; exact Bool.false_ne_true),
        List.filter_cons_of_neg (by show ¬ v.isAdmitted g = true; rw [hv]; exact Bool.false_ne_true)]
      exact ih (halike.symm.trans h) hnext.1 hnext.2

/-! ## §4. What each name stands for. -/

/-- Which action of the service a request runs that is addressed by a full name, method by method. -/
inductive Serves : String → (r : Request) →
    Handler r.method.Item r.method.Response r.method.Progress r.method.Result → Prop
  | addUser (user : User) :
      Serves "/roster.v1.UserService/AddUser" (.addUser user) (.ofAction (Service.addUser user))
  | getUser (request : GetUserRequest) :
      Serves "/roster.v1.UserService/GetUser" (.getUser request)
        (.ofAction (Service.getUser request))
  | updateUser (request : UpdateUserRequest) :
      Serves "/roster.v1.UserService/UpdateUser" (.updateUser request)
        (.ofAction (Service.updateUser request))
  | deleteUser (request : DeleteUserRequest) :
      Serves "/roster.v1.UserService/DeleteUser" (.deleteUser request)
        (.ofAction (Service.deleteUser request))
  | listUsers (request : ListUsersRequest) :
      Serves "/roster.v1.UserService/ListUsers" (.listUsers request)
        (.ofAction (Service.listUsers request))
  | listUsersByRole (request : UserRoleRequest) :
      Serves "/roster.v1.UserService/ListUsersByRole" (.listUsersByRole request)
        (.ofAction (Service.listUsersByRole request))
  | batchAddUsers (users : Inbound User) :
      Serves "/roster.v1.UserService/BatchAddUsers" (.batchAddUsers users)
        (.ofItems Service.BatchTotals.zero Service.batchItem Service.batchEnd)
  | userActivityStream (activities : Inbound UserActivity) :
      Serves "/roster.v1.UserService/UserActivityStream" (.userActivityStream activities)
        (.ofItems () Service.activityItem fun _ => pure ())
  | syncUsers (users : Inbound User) :
      Serves "/roster.v1.UserService/SyncUsers" (.syncUsers users)
        (.ofItems () Service.syncItem fun _ => pure ())

/-- What answers a request is what its full name stands for. -/
theorem serves_handler (r : Request) : Serves r.method.fullName r r.handler := by
  cases r with
  | addUser user => exact .addUser user
  | getUser request => exact .getUser request
  | updateUser request => exact .updateUser request
  | deleteUser request => exact .deleteUser request
  | listUsers request => exact .listUsers request
  | listUsersByRole request => exact .listUsersByRole request
  | batchAddUsers users => exact .batchAddUsers users
  | userActivityStream activities => exact .userActivityStream activities
  | syncUsers users => exact .syncUsers users

/-! ## §5. Whoever comes. -/

/-- The server goes on as before after a request: it asks the same gate, and nobody refreshes. -/
theorem payAll_keeps (vs : List Visit) (hg : t.world.gate = some g) (hr : t.refresher = none) :
    (payAll vs t).2.world.gate = some g ∧ (payAll vs t).2.refresher = none := by
  induction vs generalizing t with
  | nil => exact ⟨hg, hr⟩
  | cons v more ih =>
    obtain ⟨hgate, hrefresher⟩ := pay_keeps v hg hr
    exact ih hgate hrefresher

/-- A request is not let through: its caller reads one status, the store is not asked for anything, and
one failed call is counted.  Any other handler and any other stream of requests would have come to the
very same. -/
structure Visit.Refused (v : Visit) (g : Gate) (t : Timeline) : Prop where
  told : ∃ e, v.judged g = .error e
    ∧ (e.status.code = .unauthenticated ∨ e.status.code = .permissionDenied)
    ∧ (v.pay t).1 = ⟨some (.error e), toldReader v.enough v.attentive e.status, false⟩
    ∧ ∀ (ι σ α : Type) (h : Handler ι v.request.method.Response σ α) (i : Inbound ι),
        (v.arrive t).call (begun h i v.context v.capacity v.enough v.attentive t.world.clock)
            v.patience
          = (⟨some (.error e), toldReader v.enough v.attentive e.status, false⟩, (v.pay t).2)
  backend : (v.pay t).2.world.backend = t.world.backend
  counted : Metrics.FailedOnce v.request.method.fullName t.world.metrics (v.pay t).2.world.metrics

/-- A request is let through: its caller is known and may call the method, and what becomes of the
request is what becomes of a call of the handler of this very method, the one that the approved name
stands for, which is at its start and has the claims of the caller.  Unless the call has been cancelled
or its time is over, the handler does its first step. -/
structure Visit.Handled (v : Visit) (g : Gate) (t : Timeline) (claims : Claims) : Prop where
  known : g.authority.authenticate v.metadata (Int64.ofInt v.wall.seconds) = .ok claims
  approved : g.policy.approve v.request.method.fullName claims = .ok ()
  named : ∀ m : Method, m.fullName = v.request.method.fullName → m = v.request.method
  run : ∃ c w', World.Alike (some g) (v.arrive t).shutDownWhenDue.world w'
    ∧ v.pay t = ({ (v.arrive t).shutDownWhenDue with world := w' } : Timeline).call
        ⟨.served, none, false, .running c⟩ v.patience
    ∧ c.handler = v.request.handler ∧ c.stage = v.request.handler.start
    ∧ Serves v.request.method.fullName v.request c.handler
    ∧ c.inbound = v.request.inbound ∧ c.state.context = v.context
    ∧ c.state.claims = some claims
    ∧ (c.state.isCancelled w' = false → c.state.isOverdue w' = false →
        c.poll w' = goOn c w')

theorem Visit.refused_of_not_admitted {v : Visit} (hg : t.world.gate = some g)
    (hr : t.refresher = none) (h : v.isAdmitted g = false) : v.Refused g t := by
  obtain ⟨e, hjudge, hcode⟩ := v.exists_error_of_not_admitted h
  obtain ⟨hanswer, halike, hmetrics, hcall⟩ := pay_of_refused hg hr hjudge
  refine ⟨⟨e, hjudge, hcode, hanswer, hcall⟩, (halike v).backend, ?_⟩
  rw [hmetrics]
  exact Metrics.failedOnce_record _ _ _

theorem Visit.handled_of_admitted {v : Visit} (hg : t.world.gate = some g)
    (h : v.isAdmitted g = true) : ∃ claims, v.Handled g t claims := by
  unfold isAdmitted at h
  cases hjudge : v.judged g with
  | error e =>
    rw [hjudge] at h
    cases h
  | ok claims =>
    obtain ⟨hmetadata, hmethod⟩ := v.context_eq
    obtain ⟨hknown, happroved⟩ := Gate.judge_eq_ok_iff.1 hjudge
    obtain ⟨w', halike, hcall⟩ := call_of_admitted (t := v.arrive t) (h := v.request.handler)
      (i := v.request.inbound) v.context v.capacity v.enough v.attentive v.patience hg
      (by rw [hmetadata, hmethod]; exact hjudge)
    -- no two methods have one name
    refine ⟨claims, hknown, happroved, fun m hm => ?_, _, w', halike, hcall, rfl, rfl,
      serves_handler v.request, rfl, rfl, rfl, poll_of_live⟩
    have hname := Method.ofFullName?_fullName m
    rw [hm, Method.ofFullName?_fullName] at hname
    exact (Option.some.inj hname).symm

/-- However many requests come and whoever makes them: without those that are not let through, the
others are answered the same and the store ends up the same.  Each that is not let through is refused
and does nothing else, and each that is let through is its handler's. -/
theorem refused_visits_erased (g : Gate) (t : Timeline) (hg : t.world.gate = some g)
    (hr : t.refresher = none) (vs : List Visit) :
    (payAll vs t).1.filter (fun a => a.1.isAdmitted g)
        = (payAll (vs.filter (Visit.isAdmitted g)) t).1
      ∧ (payAll vs t).2.world.backend
        = (payAll (vs.filter (Visit.isAdmitted g)) t).2.world.backend
      ∧ ∀ before v after, vs = before ++ v :: after →
          (v.isAdmitted g = false → v.Refused g (payAll before t).2)
          ∧ (v.isAdmitted g = true → ∃ claims, v.Handled g (payAll before t).2 claims) := by
  obtain ⟨hanswers, hend⟩ := payAll_erase vs (AlikeForNext.refl hg hr) hg hr
  refine ⟨hanswers, ?_, fun before v after _ => ?_⟩
  · -- worlds that are alike have one store
    cases vs with
    | nil => rfl
    | cons v more => exact (hend v).backend.symm
  · obtain ⟨hgate, hrefresher⟩ := payAll_keeps before hg hr
    exact ⟨v.refused_of_not_admitted hgate hrefresher, v.handled_of_admitted hgate⟩

/-- A gate whose codes are one byte, the number of the bytes signed. -/
def countingGate : Gate :=
  ⟨⟨"directory", 3600, fun bytes => [UInt8.ofNat bytes.length]⟩, .rules Access.defaultRules⟩

/-- A request to delete the first user. -/
def deletion (metadata : Option Metadata) : Visit :=
  ⟨.deleteUser ⟨1⟩, metadata, .epoch, 1, none, true, 0⟩

/-- The metadata of an admin whose token has just been issued by a gate. -/
def adminMetadata (g : Gate) : Metadata :=
  let token := g.authority.issue ⟨"1", "ada", "", .ofNames [Role.admin.name]⟩ 0
  Metadata.empty.put Access.authorizationHeader
    ((Access.bearerWord ++ token).map fun c => UInt8.ofNat c.toNat)

/-- One who has no token would delete a user and is refused; then the request of an admin is handled as
if the first had never come. -/
theorem refused_visits_erased_admin :
    let t := Timeline.start (.start .epoch (some countingGate) .empty)
    let stranger := deletion none
    let admin := deletion (some (adminMetadata countingGate))
    (payAll [stranger, admin] t).1.filter (fun a => a.1.isAdmitted countingGate)
        = (payAll [admin] t).1
      ∧ (payAll [stranger, admin] t).2.world.backend = (payAll [admin] t).2.world.backend
      ∧ stranger.Refused countingGate t
      ∧ ∃ claims, admin.Handled countingGate (stranger.pay t).2 claims := by
  intro t stranger admin
  -- what the gate says about the two can be computed; the rest is the general statement
  have hstranger : stranger.isAdmitted countingGate = false := by decide
  have hadmin : admin.isAdmitted countingGate = true := by decide +kernel
  obtain ⟨hanswers, hbackend, heach⟩ :=
    refused_visits_erased countingGate t rfl rfl [stranger, admin]
  have hleft : [stranger, admin].filter (Visit.isAdmitted countingGate) = [admin] := by
    rw [List.filter_cons_of_neg (by rw [hstranger]; exact Bool.false_ne_true),
      List.filter_cons_of_pos hadmin]
    rfl
  rw [hleft] at hanswers hbackend
  exact ⟨hanswers, hbackend, (heach [] stranger [admin] rfl).1 hstranger,
    (heach [stranger] admin [] rfl).2 hadmin⟩

end UserDirectory.Timeline
