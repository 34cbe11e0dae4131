import UserDirectory.Proofs.Call.Likeness
import UserDirectory.Proofs.Store.Relational.Failures
import UserDirectory.Service.Request
/-!
# What handlers make of failures

A handler that learns how something behind the store failed writes it in the log and goes on as it would
after any other such failure.

Main statements:
  * `heedless_create`, `heedless_syncUser`, `heedless_recordActivity`: the parts that look at an error;
  * `Request.heedless_handler`: the handlers of the service go on alike.
-/

namespace UserDirectory.Call

open UserDirectory.Service (ServiceError isBackend)
open UserDirectory.Store (Operation StoreError)
open UserDirectory.Store.Relational (Server)
open UserDirectory.Telemetry (Note)

/-! ## §1. Failures that are alike. -/

/-- Errors that are alike are the same, or both are of something behind the store. -/
def Likeness.OfFailures (l : Likeness) : Prop :=
  ∀ e e', l.errors e e' → e' = e ∨ isBackend e = true ∧ isBackend e' = true

/-- A caller is told the same of errors that are alike. -/
theorem Likeness.OfFailures.ofStore_eq {l : Likeness} (hl : l.OfFailures) {e e' : StoreError}
    (h : l.errors e e') : ServiceError.ofStore e' = ServiceError.ofStore e := by
  rcases hl e e' h with rfl | ⟨he, he'⟩
  · rfl
  · exact Service.ofStore_eq_of_isBackend he' he

/-- Stores in databases that fail alike, and have been asked the same. -/
def Likeness.databases {server server' : Server} (h : server.FailsLike server') : Likeness where
  engines x y := ∃ history, x = .relational server history ∧ y = .relational server' history
  errors e e' := e' = e ∨ isBackend e = true ∧ isBackend e' = true
  errors_refl _ := .inl rfl
  perform {x y} hxy now op := by
    obtain ⟨history, rfl, rfl⟩ := hxy
    have hrefl := fun r : op.Outcome => SameOutcome.refl
      (R := fun e e' => e' = e ∨ isBackend e = true ∧ isBackend e' = true) (fun _ => .inl rfl) r
    unfold Store.Engine.perform
    cases hq : Store.Relational.queryOf now op with
    | error e => exact ⟨hrefl _, history, rfl, rfl⟩
    | ok q =>
      simp only
      rcases h history q now op hq with hsame | ⟨hfails, hfails'⟩
      · rw [hsame]
        exact ⟨hrefl _, _, rfl, rfl⟩
      · obtain ⟨e, he, hbackend⟩ := hfails.interpret
        obtain ⟨e', he', hbackend'⟩ := hfails'.interpret
        rw [he, he']
        exact ⟨.error (.inr ⟨hbackend, hbackend'⟩), _, rfl, rfl⟩

theorem Likeness.ofFailures_databases {server server' : Server} (h : server.FailsLike server') :
    (Likeness.databases h).OfFailures := fun _ _ he => he

/-! ## §2. Actions. -/

/-- Two actions end with values in a relation, or with one failure. -/
inductive SameEnding {α β : Type} (R : α → β → Prop) :
    Except ServiceError α → Except ServiceError β → Prop
  | ok {a : α} {b : β} (h : R a b) : SameEnding R (.ok a) (.ok b)
  | error (e : ServiceError) : SameEnding R (.error e) (.error e)

theorem SameEnding.eq {α : Type} {r r' : Except ServiceError α} (h : SameEnding Eq r r') :
    r = r' := by
  cases h with
  | ok h => rw [h]
  | error e => rfl

namespace Action

variable {l : Likeness} {ο α β γ δ : Type} {R : α → β → Prop} {S : γ → δ → Prop}

/-- Two actions do the same and go on alike after outcomes that are alike. -/
def Like (l : Likeness) (R : α → β → Prop) (a : Action ο α) (b : Action ο β) : Prop :=
  Program.Like l (SameEnding R) a.program b.program

/-- An action that goes on alike after outcomes that are alike. -/
def Heedless (l : Likeness) (a : Action ο α) : Prop := Like l Eq a a

theorem like_pure {a : α} {b : β} (h : R a b) : Like l R (pure a : Action ο α) (pure b) :=
  .done (.ok h)

theorem like_throw (e : ServiceError) : Like l R (throw e : Action ο α) (throw e) := .done (.error e)

theorem like_bind {a : Action ο α} {b : Action ο β} {f : α → Action ο γ} {f' : β → Action ο δ}
    (h : Like l R a b) (hf : ∀ x y, R x y → Like l S (f x) (f' y)) :
    Like l S (a >>= f) (b >>= f') :=
  Program.Like.bind h fun r r' hr => by
    cases hr with
    | ok h => exact hf _ _ h
    | error e => exact .done (.error e)

theorem like_attempt (op : Operation) :
    Like l l.Outcomes (attempt op : Action ο op.Outcome) (attempt op) :=
  .store op fun _ _ h => .done (.ok h)

/-- What is noted makes no difference. -/
theorem like_note (n n' : Note) : Like l Eq (note n : Action ο Unit) (note n') :=
  .note n n' (.done (.ok rfl))

theorem heedless_pure (a : α) : Heedless l (pure a : Action ο α) := like_pure rfl

theorem heedless_throw (e : ServiceError) : Heedless l (throw e : Action ο α) := like_throw e

theorem heedless_bind {a : Action ο α} {f : α → Action ο γ} (h : a.Heedless l)
    (hf : ∀ x, (f x).Heedless l) : Heedless l (a >>= f) :=
  like_bind h fun x y hxy => by
    subst hxy
    exact hf x

theorem heedless_note (n : Note) : Heedless l (note n : Action ο Unit) := like_note n n

theorem heedless_clock : Heedless l (clock : Action ο Time.Instant) := .clock fun _ => .done (.ok rfl)

theorem heedless_ensureLive : Heedless l (ensureLive : Action ο Unit) :=
  .live fun alive => by
    cases alive with
    | true => exact heedless_pure ()
    | false => exact heedless_throw _

theorem heedless_send (item : ο) : Heedless l (send item) :=
  .send item fun there => by
    cases there with
    | true => exact heedless_pure ()
    | false => exact heedless_throw _

theorem heedless_ite {c : Prop} [Decidable c] {a b : Action ο α} (ha : a.Heedless l)
    (hb : b.Heedless l) : Heedless l (if c then a else b) := by
  split
  · exact ha
  · exact hb

/-- Something is done first on a condition. -/
theorem heedless_when {c : Prop} [Decidable c] {a : Action ο PUnit} {rest : PUnit → Action ο α}
    (ha : a.Heedless l) (hrest : ∀ u, (rest u).Heedless l) :
    Heedless l (if c then a >>= rest else rest ⟨⟩) :=
  heedless_ite (heedless_bind ha hrest) (hrest _)

/-- Who learns how an action ends learns the same. -/
theorem heedless_outcome {a : Action ο α} (h : a.Heedless l) : a.outcome.Heedless l :=
  Program.Like.bind h fun _ _ hr => .done (.ok hr.eq)

/-- That the store refused is told the same. -/
theorem heedless_store (hl : l.OfFailures) (op : Operation) :
    Heedless l (store op : Action ο op.Reply) :=
  like_bind (like_attempt op) fun r r' hr => by
    cases hr with
    | ok a => exact heedless_pure a
    | error he =>
      show Like l Eq (throw _) (throw _)
      rw [hl.ofStore_eq he]
      exact like_throw _

end Action

/-! ## §3. Handlers. -/

namespace Handler

variable {l : Likeness} {ι ο σ α : Type}

theorem heedless_ofAction {a : Action ο α} (h : a.Heedless l) :
    (ofAction a : Handler ι ο Unit α).Heedless l :=
  have hprogram : Program.Like l Eq a.program a.program := Program.Like.mono h fun _ _ hr => hr.eq
  ⟨fun _ _ => .done rfl, fun _ => hprogram, .closing hprogram⟩

theorem heedless_ofItems {start : σ} {onItem : σ → ι → Action ο σ} {onEnd : σ → Action ο α}
    (hitem : ∀ kept x, (onItem kept x).Heedless l) (hend : ∀ kept, (onEnd kept).Heedless l) :
    (ofItems start onItem onEnd).Heedless l :=
  ⟨fun kept x => Program.Like.mono (hitem kept x) fun _ _ hr => hr.eq,
    fun kept => Program.Like.mono (hend kept) fun _ _ hr => hr.eq, .awaiting start⟩

end Handler

end UserDirectory.Call

/-! ## §4. The service. -/

namespace UserDirectory.Service

open UserDirectory.Call
open UserDirectory.Time (Instant)

variable {l : Likeness} {ο : Type}

theorem heedless_needId (id : UInt32) : (needId id : Action ο Unit).Heedless l :=
  Action.heedless_ite (Action.heedless_throw _) (Action.heedless_pure ())

/-- That the users could not be counted is told without why. -/
theorem heedless_userCount : (userCount : Action ο Nat).Heedless l :=
  Action.like_bind (Action.like_attempt .count) fun r r' hr => by
    cases hr with
    | ok n => exact Action.heedless_pure n
    | error he => exact Action.like_bind (Action.like_note _ _) fun _ _ _ => Action.like_throw _

theorem heedless_create (hl : l.OfFailures) (u : User) : (create u : Action ο Unit).Heedless l := by
  have hfirst : (checkFirst u : Action ο Unit).Heedless l :=
    Action.heedless_bind heedless_userCount fun n =>
      Action.heedless_ite (Action.heedless_throw _) (Action.heedless_pure ())
  exact Action.heedless_bind hfirst fun _ => Action.heedless_bind (heedless_needId u.id) fun _ =>
    Action.heedless_when (Action.heedless_throw _) fun _ => Action.heedless_store hl _

theorem heedless_addUser (hl : l.OfFailures) (u : User) : (addUser u : Action ο Unit).Heedless l :=
  Action.heedless_bind Action.heedless_ensureLive fun _ =>
    Action.heedless_bind (heedless_create hl u) fun _ => Action.heedless_note _

theorem heedless_getUser (hl : l.OfFailures) (r : GetUserRequest) :
    (getUser r : Action ο User).Heedless l :=
  Action.heedless_bind Action.heedless_ensureLive fun _ =>
    Action.heedless_bind (heedless_needId r.id) fun _ => Action.heedless_store hl _

theorem heedless_updateUser (hl : l.OfFailures) (r : UpdateUserRequest) :
    (updateUser r : Action ο User).Heedless l := by
  have huser : (needUser r.user : Action ο User).Heedless l := by
    unfold needUser
    split
    · exact Action.heedless_pure _
    · exact Action.heedless_throw _
  have hmerged : ∀ existing patch,
      (merged existing patch r.updateMask : Action ο User).Heedless l := by
    intro existing patch
    unfold merged
    split
    · exact Action.heedless_pure _
    · exact Action.heedless_throw _
  exact Action.heedless_bind huser fun patch =>
    Action.heedless_bind (heedless_needId patch.id) fun _ =>
    Action.heedless_bind Action.heedless_ensureLive fun _ =>
    Action.heedless_bind (Action.heedless_store hl _) fun existing =>
    Action.heedless_bind (hmerged _ _) fun _ =>
    Action.heedless_bind Action.heedless_ensureLive fun _ =>
    Action.heedless_bind (Action.heedless_store hl _) fun _ =>
    Action.heedless_bind (Action.heedless_note _) fun _ => Action.heedless_pure _

theorem heedless_deleteUser (hl : l.OfFailures) (r : DeleteUserRequest) :
    (deleteUser r : Action ο Unit).Heedless l :=
  Action.heedless_bind Action.heedless_ensureLive fun _ =>
    Action.heedless_bind (heedless_needId r.id) fun _ =>
    Action.heedless_bind (Action.heedless_store hl _) fun _ => Action.heedless_note _

theorem heedless_sendAll (users : List User) : (sendAll users).Heedless l := by
  induction users with
  | nil => exact Action.heedless_pure ()
  | cons u more ih =>
    exact Action.heedless_bind Action.heedless_ensureLive fun _ =>
      Action.heedless_bind (Action.heedless_send u) fun _ => ih

theorem heedless_listUsers (hl : l.OfFailures) (r : ListUsersRequest) : (listUsers r).Heedless l := by
  have hbefore : (createdBefore r.olderThan).Heedless l := by
    unfold createdBefore
    split
    · exact Action.heedless_pure none
    · refine Action.heedless_bind Action.heedless_clock fun now => ?_
      split
      · exact Action.heedless_pure _
      · exact Action.heedless_throw _
  exact Action.heedless_bind hbefore fun _ => Action.heedless_bind Action.heedless_ensureLive fun _ =>
    Action.heedless_bind (Action.heedless_store hl _) fun users =>
    Action.heedless_when (Action.heedless_throw _) fun _ => heedless_sendAll users

theorem heedless_listUsersByRole (hl : l.OfFailures) (r : UserRoleRequest) :
    (listUsersByRole r).Heedless l :=
  Action.heedless_bind Action.heedless_ensureLive fun _ =>
    Action.heedless_bind (Action.heedless_store hl _) fun users =>
    Action.heedless_when (Action.heedless_throw _) fun _ => heedless_sendAll users

theorem heedless_batchItem (hl : l.OfFailures) (t : BatchTotals) (u : User) :
    (batchItem t u : Action ο BatchTotals).Heedless l := by
  refine Action.heedless_bind Action.heedless_ensureLive fun _ =>
    Action.heedless_bind (Action.heedless_outcome (heedless_create hl u)) fun outcome => ?_
  split
  · exact Action.heedless_pure _
  · exact Action.heedless_throw _
  · exact Action.heedless_pure _

theorem heedless_batchEnd (t : BatchTotals) :
    (batchEnd t : Action ο BatchAddUsersResponse).Heedless l :=
  Action.heedless_bind (Action.heedless_note _) fun _ =>
    Action.heedless_bind Action.heedless_clock fun _ => Action.heedless_pure _

/-- That a login could not be written down is noted, and nothing else comes of it. -/
theorem heedless_recordLogin (a : UserActivity) : (recordLogin a : Action ο Unit).Heedless l := by
  have hinstant : (loginInstant a : Action ο Instant).Heedless l := by
    unfold loginInstant
    split
    · exact Action.heedless_pure _
    · exact Action.heedless_clock
  have htouch : ∀ at_, Action.Like l l.Outcomes (touchLogin a.userId at_ : Action ο _)
      (touchLogin a.userId at_) := fun at_ =>
    Action.like_bind (Action.like_attempt _) fun r r' hr => by
      cases hr with
      | ok u => exact Action.like_attempt (.update { (u : User) with lastLogin := some at_ })
      | error he => exact Action.like_pure (.error he)
  exact Action.heedless_bind hinstant fun at_ => Action.like_bind (htouch at_) fun r r' hr => by
    cases hr with
    | ok _ => exact Action.heedless_pure ()
    | error he => exact Action.like_note _ _

theorem heedless_recordActivity (hl : l.OfFailures) (a : UserActivity) :
    (recordActivity a : Action ο UserActivityResponse).Heedless l := by
  have hanswer : ∀ f : Instant → UserActivityResponse,
      (Action.clock >>= fun now => pure (f now) : Action ο _).Heedless l := fun f =>
    Action.heedless_bind Action.heedless_clock fun now => Action.heedless_pure _
  refine Action.heedless_bind (Action.heedless_store hl _) fun _ => Action.heedless_ite ?_ (hanswer _)
  exact Action.heedless_when (heedless_recordLogin a) fun _ => hanswer _

theorem heedless_activityItem (hl : l.OfFailures) (kept : Unit) (a : UserActivity) :
    (activityItem kept a).Heedless l :=
  Action.heedless_bind Action.heedless_ensureLive fun _ =>
    Action.heedless_bind (heedless_recordActivity hl a) fun response => Action.heedless_send response

/-- A user whose number is not found is added; after any other error nothing is, and none is told from
another of its kind. -/
theorem heedless_syncUser (hl : l.OfFailures) (u : User) :
    (syncUser u : Action ο (List String)).Heedless l := by
  refine Action.heedless_bind (heedless_needId u.id) fun _ =>
    Action.like_bind (Action.like_attempt _) fun found found' hfound => ?_
  cases hfound with
  | ok existing =>
    exact Action.heedless_bind (Action.heedless_store hl _) fun _ => Action.heedless_pure _
  | @error e e' he =>
    rcases hl e e' he with rfl | ⟨hbackend, hbackend'⟩
    · cases e' with
      | notFound id =>
        exact Action.heedless_bind (heedless_create hl u) fun _ => Action.heedless_pure _
      | _ => exact Action.heedless_throw _
    · -- neither is about a user who is not there
      have hthrow : Action.Like l Eq (throw (.ofStore e) : Action ο (List String))
          (throw (.ofStore e')) := by
        rw [hl.ofStore_eq he]
        exact Action.like_throw _
      cases e <;> cases hbackend <;> cases e' <;> cases hbackend' <;> exact hthrow

theorem heedless_syncItem (hl : l.OfFailures) (kept : Unit) (u : User) :
    (syncItem kept u).Heedless l :=
  Action.heedless_bind Action.heedless_ensureLive fun _ =>
    Action.heedless_bind (Action.heedless_outcome (heedless_syncUser hl u)) fun _ =>
    Action.heedless_when (Action.heedless_throw _) fun _ => Action.heedless_send _

/-- The handlers of the service go on alike after failures that are alike. -/
theorem Request.heedless_handler (hl : l.OfFailures) (r : Request) : r.handler.Heedless l := by
  cases r with
  | addUser u => exact Handler.heedless_ofAction (heedless_addUser hl u)
  | getUser r => exact Handler.heedless_ofAction (heedless_getUser hl r)
  | updateUser r => exact Handler.heedless_ofAction (heedless_updateUser hl r)
  | deleteUser r => exact Handler.heedless_ofAction (heedless_deleteUser hl r)
  | listUsers r => exact Handler.heedless_ofAction (heedless_listUsers hl r)
  | listUsersByRole r => exact Handler.heedless_ofAction (heedless_listUsersByRole hl r)
  | batchAddUsers users =>
    exact Handler.heedless_ofItems (heedless_batchItem hl) heedless_batchEnd
  | userActivityStream activities =>
    exact Handler.heedless_ofItems (heedless_activityItem hl) fun _ => Action.heedless_pure ()
  | syncUsers users =>
    exact Handler.heedless_ofItems (heedless_syncItem hl) fun _ => Action.heedless_pure ()

end UserDirectory.Service
