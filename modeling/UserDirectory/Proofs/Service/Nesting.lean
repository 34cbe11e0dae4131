import UserDirectory.Call.Script
import UserDirectory.Proofs.Call.Quiet
import UserDirectory.Service.Request
/-!
# Handlers that end what they begin

The handlers of the service never go through the chain again, and a script that does ends the pass it
begins, however what lies between ends.

Main statements:
  * `quiet_create`, `quiet_syncUser`, `quiet_recordActivity`: what only asks, and how often at most;
  * `Request.proper_handler`: the handlers of the service;
  * `Script.proper_handler`: the scripted ones.
-/

namespace UserDirectory.Call

open UserDirectory.Service (ServiceError)
open UserDirectory.Store (Operation)
open UserDirectory.Telemetry (Note)

variable {ι ο σ α β δ : Type}

/-! ## §1. Actions. -/

namespace Action

/-- An action ends every pass it begins. -/
def Flat (a : Action ο α) : Prop := a.program.Nested 0

theorem flat_pure (a : α) : Flat (pure a : Action ο α) := rfl

theorem flat_throw (e : ServiceError) : Flat (throw e : Action ο α) := rfl

theorem flat_bind {a : Action ο β} {f : β → Action ο α} (ha : a.Flat) (hf : ∀ b, (f b).Flat) :
    Flat (a >>= f) :=
  Program.nested_bind (k := 0) (j := 0) ha fun r => by
    cases r with
    | ok b => exact hf b
    | error e => exact rfl

/-- Whoever learns how an action ends goes on in any case. -/
theorem program_outcome_bind (a : Action ο β) (f : Except ServiceError β → Action ο α) :
    (a.outcome >>= f).program = a.program.bind fun r => (f r).program :=
  Program.bind_assoc a.program (fun r => .done (Except.ok r)) _

theorem flat_outcome {a : Action ο α} (ha : a.Flat) : a.outcome.Flat :=
  Program.nested_bind (k := 0) (j := 0) ha fun _ => rfl

theorem flat_store (op : Operation) : Flat (store op : Action ο op.Reply) := (quiet_store op).nested

theorem flat_note {n : Note} (h : n.isOfPass = false) : Flat (note n : Action ο Unit) :=
  (quiet_note h).nested

theorem flat_clock : Flat (clock : Action ο Time.Instant) := quiet_clock.nested

theorem flat_claims : Flat (claims : Action ο _) := fun _ => rfl

theorem flat_ensureLive : Flat (ensureLive : Action ο Unit) := fun alive => by cases alive <;> rfl

theorem flat_send (item : ο) : Flat (send item) := fun there => by cases there <;> rfl

theorem flat_ite {c : Prop} [Decidable c] {a b : Action ο α} (ha : a.Flat) (hb : b.Flat) :
    Flat (if c then a else b) := by
  split
  · exact ha
  · exact hb

/-- Something is done first on a condition. -/
theorem flat_when {c : Prop} [Decidable c] {a : Action ο PUnit} {rest : PUnit → Action ο α}
    (ha : a.Flat) (hrest : ∀ u, (rest u).Flat) : Flat (if c then a >>= rest else rest ⟨⟩) :=
  flat_ite (flat_bind ha hrest) (hrest _)

end Action

/-- An action of its own. -/
theorem Handler.proper_ofAction {a : Action ο α} (h : a.Flat) :
    (Handler.ofAction a : Handler ι ο Unit α).Proper :=
  ⟨fun _ _ => rfl, fun _ => h, h⟩

/-- A handler that waits for requests. -/
theorem Handler.proper_ofItems {start : σ} {onItem : σ → ι → Action ο σ} {onEnd : σ → Action ο α}
    (hitem : ∀ kept x, (onItem kept x).Flat) (hend : ∀ kept, (onEnd kept).Flat) :
    (Handler.ofItems start onItem onEnd).Proper :=
  ⟨hitem, hend, rfl⟩

end UserDirectory.Call

/-! ## §2. The service. -/

namespace UserDirectory.Service

open UserDirectory.Call
open UserDirectory.Time (Instant)

variable {ο : Type}

theorem quiet_needId (id : UInt32) : (needId id : Action ο Unit).Quiet 0 :=
  Action.quiet_ite (Action.quiet_throw _) (Action.quiet_pure ())

theorem quiet_create (u : User) : (create u : Action ο Unit).Quiet 3 := by
  have hcount : (userCount : Action ο Nat).Quiet 2 := by
    refine Action.quiet_bind (n := 1) (m := 1) (Action.quiet_attempt .count) fun r => ?_
    cases r with
    | ok n => exact Action.quiet_pure n
    | error e => exact Action.quiet_bind (m := 0) (Action.quiet_note rfl) fun _ => Action.quiet_throw _
  have hfirst : (checkFirst u : Action ο Unit).Quiet 2 :=
    Action.quiet_bind (m := 0) hcount fun n =>
      Action.quiet_ite (Action.quiet_throw _) (Action.quiet_pure ())
  exact Action.quiet_bind (m := 1) hfirst fun _ =>
    Action.quiet_bind (m := 1) (quiet_needId u.id) fun _ =>
    Action.quiet_when (n := 0) (Action.quiet_throw _) fun _ => Action.quiet_store _

theorem quiet_syncUser (u : User) : (syncUser u : Action ο (List String)).Quiet 4 := by
  refine Action.quiet_bind (n := 0) (m := 4) (quiet_needId u.id) fun _ =>
    Action.quiet_bind (n := 1) (m := 3) (Action.quiet_attempt _) fun found => ?_
  rcases found with e | existing
  · cases e with
    | notFound id => exact Action.quiet_bind (m := 0) (quiet_create u) fun _ => Action.quiet_pure _
    | _ => exact Action.quiet_throw _
  · exact (Action.quiet_bind (m := 0) (Action.quiet_store _) fun _ => Action.quiet_pure _).mono
      (by decide)

theorem quiet_recordActivity (a : UserActivity) :
    (recordActivity a : Action ο UserActivityResponse).Quiet 6 := by
  have hinstant : (loginInstant a : Action ο Instant).Quiet 1 := by
    unfold loginInstant
    split
    · exact Action.quiet_pure _
    · exact Action.quiet_clock
  have htouch : ∀ at_, (touchLogin a.userId at_ : Action ο _).Quiet 2 := by
    intro at_
    refine Action.quiet_bind (n := 1) (m := 1) (Action.quiet_attempt _) fun r => ?_
    cases r with
    | error e => exact Action.quiet_pure _
    | ok u => exact Action.quiet_attempt _
  have hlogin : (recordLogin a : Action ο Unit).Quiet 4 := by
    refine Action.quiet_bind (n := 1) (m := 3) hinstant fun at_ =>
      Action.quiet_bind (n := 2) (m := 1) (htouch at_) fun r => ?_
    cases r with
    | error e => exact Action.quiet_note rfl
    | ok _ => exact Action.quiet_pure _
  have hanswer : ∀ f : Instant → UserActivityResponse,
      (Action.clock >>= fun now => pure (f now) : Action ο _).Quiet 1 := fun f =>
    Action.quiet_bind (m := 0) Action.quiet_clock fun now => Action.quiet_pure _
  refine Action.quiet_bind (n := 1) (m := 5) (Action.quiet_store _) fun _ => Action.quiet_ite ?_ ?_
  · exact Action.quiet_when (m := 1) hlogin fun _ => hanswer _
  · exact (hanswer _).mono (by decide)

theorem flat_addUser (u : User) : (addUser u : Action ο Unit).Flat :=
  Action.flat_bind Action.flat_ensureLive fun _ =>
    Action.flat_bind (quiet_create u).nested fun _ => Action.flat_note rfl

theorem flat_getUser (r : GetUserRequest) : (getUser r : Action ο User).Flat :=
  Action.flat_bind Action.flat_ensureLive fun _ =>
    Action.flat_bind (quiet_needId r.id).nested fun _ => Action.flat_store _

theorem flat_updateUser (r : UpdateUserRequest) : (updateUser r : Action ο User).Flat := by
  have huser : (needUser r.user : Action ο User).Flat := by
    unfold needUser
    split <;> exact rfl
  have hmerged : ∀ existing patch, (merged existing patch r.updateMask : Action ο User).Flat := by
    intro existing patch
    unfold merged
    split <;> exact rfl
  exact Action.flat_bind huser fun patch => Action.flat_bind (quiet_needId patch.id).nested fun _ =>
    Action.flat_bind Action.flat_ensureLive fun _ =>
    Action.flat_bind (Action.flat_store _) fun existing => Action.flat_bind (hmerged _ _) fun _ =>
    Action.flat_bind Action.flat_ensureLive fun _ => Action.flat_bind (Action.flat_store _) fun _ =>
    Action.flat_bind (Action.flat_note rfl) fun _ => Action.flat_pure _

theorem flat_deleteUser (r : DeleteUserRequest) : (deleteUser r : Action ο Unit).Flat :=
  Action.flat_bind Action.flat_ensureLive fun _ => Action.flat_bind (quiet_needId r.id).nested fun _ =>
    Action.flat_bind (Action.flat_store _) fun _ => Action.flat_note rfl

theorem flat_sendAll (users : List User) : (sendAll users).Flat := by
  induction users with
  | nil => exact Action.flat_pure ()
  | cons u more ih =>
    exact Action.flat_bind Action.flat_ensureLive fun _ =>
      Action.flat_bind (Action.flat_send u) fun _ => ih

theorem flat_listUsers (r : ListUsersRequest) : (listUsers r).Flat := by
  have hbefore : (createdBefore r.olderThan).Flat := by
    unfold createdBefore
    split
    · exact rfl
    · refine Action.flat_bind Action.flat_clock fun now => ?_
      split <;> exact rfl
  exact Action.flat_bind hbefore fun _ => Action.flat_bind Action.flat_ensureLive fun _ =>
    Action.flat_bind (Action.flat_store _) fun users =>
    Action.flat_when (Action.flat_throw _) fun _ => flat_sendAll users

theorem flat_listUsersByRole (r : UserRoleRequest) : (listUsersByRole r).Flat :=
  Action.flat_bind Action.flat_ensureLive fun _ =>
    Action.flat_bind (Action.flat_store _) fun users =>
    Action.flat_when (Action.flat_throw _) fun _ => flat_sendAll users

theorem flat_batchItem (t : BatchTotals) (u : User) : (batchItem t u : Action ο BatchTotals).Flat := by
  refine Action.flat_bind Action.flat_ensureLive fun _ =>
    Action.flat_bind (Action.flat_outcome (quiet_create u).nested) fun outcome => ?_
  split <;> exact rfl

theorem flat_batchEnd (t : BatchTotals) : (batchEnd t : Action ο BatchAddUsersResponse).Flat :=
  Action.flat_bind (Action.flat_note rfl) fun _ => Action.flat_bind Action.flat_clock fun _ => rfl

theorem flat_activityItem (kept : Unit) (a : UserActivity) : (activityItem kept a).Flat :=
  Action.flat_bind Action.flat_ensureLive fun _ =>
    Action.flat_bind (quiet_recordActivity a).nested fun response => Action.flat_send response

theorem flat_syncItem (kept : Unit) (u : User) : (syncItem kept u).Flat :=
  Action.flat_bind Action.flat_ensureLive fun _ =>
    Action.flat_bind (Action.flat_outcome (quiet_syncUser u).nested) fun _ =>
    Action.flat_when (Action.flat_throw _) fun _ => Action.flat_send _

/-- The handlers of the service end every pass they begin; they begin none. -/
theorem Request.proper_handler (r : Request) : r.handler.Proper := by
  cases r with
  | addUser u => exact Handler.proper_ofAction (flat_addUser u)
  | getUser r => exact Handler.proper_ofAction (flat_getUser r)
  | updateUser r => exact Handler.proper_ofAction (flat_updateUser r)
  | deleteUser r => exact Handler.proper_ofAction (flat_deleteUser r)
  | listUsers r => exact Handler.proper_ofAction (flat_listUsers r)
  | listUsersByRole r => exact Handler.proper_ofAction (flat_listUsersByRole r)
  | batchAddUsers users => exact Handler.proper_ofItems flat_batchItem flat_batchEnd
  | userActivityStream activities =>
    exact Handler.proper_ofItems flat_activityItem fun _ => Action.flat_pure ()
  | syncUsers users => exact Handler.proper_ofItems flat_syncItem fun _ => Action.flat_pure ()

end UserDirectory.Service

/-! ## §3. Scripts. -/

namespace UserDirectory.Call.Script

variable {δ α : Type}

theorem flat_checkRoles (roles : List Role) : (checkRoles roles : Act δ Unit).Flat := by
  refine Action.flat_bind Action.flat_claims fun claims => ?_
  cases claims with
  | none => exact Action.flat_throw _
  | some claims =>
    simp only
    split <;> exact rfl

theorem flat_hazards (s : Script δ) : s.hazards.Flat := by
  have hpause : (Action.ofProgram (.pause s.pause (.done ())) : Act δ Unit).Flat := rfl
  have hcancel : (Action.ofProgram (.cancel (.done ())) : Act δ Unit).Flat := rfl
  refine Action.flat_bind hpause fun _ => Action.flat_when hcancel fun _ => ?_
  cases s.failure with
  | some e => split <;> exact Action.flat_throw e
  | none =>
    split
    · exact flat_checkRoles _
    · exact Action.flat_pure ()

theorem flat_ending (s : Script δ) : s.ending.Flat := by
  refine Action.flat_bind s.flat_hazards fun _ => Action.flat_ite ?_ (Action.flat_pure _)
  exact Action.flat_bind Action.flat_claims fun _ => Action.flat_pure _

/-- What lies between the beginning and the end of a pass may end as it likes. -/
theorem flat_nested {a : Act δ α} (h : a.Flat) : (nested a).Flat := by
  refine ⟨?_, fun cause => Action.flat_throw cause⟩
  show Program.Nested (a.outcome >>= fun r => _).program 1
  rw [Action.program_outcome_bind]
  refine Program.nested_bind (k := 0) (j := 1) h fun r => ?_
  cases r <;> exact ⟨0, rfl, rfl⟩

theorem flat_streamedEnding (s : Script δ) : s.streamedEnding.Flat :=
  Action.flat_ite (flat_nested s.flat_ending) s.flat_ending

theorem flat_sendItems (items : List δ) : (sendItems items).Flat := by
  induction items with
  | nil => exact Action.flat_pure ()
  | cons x more ih => exact Action.flat_bind (Action.flat_send _) fun _ => ih

theorem flat_alone (s : Script δ) (kind : CallKind) : (s.alone kind).Flat := by
  have hending : Action.Flat (s.ending >>= fun e => pure (ScriptResult.plain e)) :=
    Action.flat_bind s.flat_ending fun _ => Action.flat_pure _
  cases kind with
  | serverStreaming =>
    exact Action.flat_bind (flat_sendItems s.sends) fun _ =>
      Action.flat_bind s.flat_streamedEnding fun _ => Action.flat_pure _
  | _ => exact hending

/-- A scripted handler ends every pass it begins. -/
theorem proper_handler (s : Script δ) (kind : CallKind) : (s.handler kind).Proper := by
  refine ⟨fun got x => ?_, fun got => ?_, ?_⟩
  · show (onItem kind got x).Flat
    cases kind with
    | bidirectional => exact Action.flat_bind (Action.flat_send _) fun _ => Action.flat_pure _
    | _ => exact Action.flat_pure _
  · show (s.onEnd kind got).Flat
    refine Action.flat_bind s.flat_streamedEnding fun e => ?_
    cases kind <;> exact Action.flat_pure _
  · cases kind with
    | unary => exact s.flat_alone .unary
    | serverStreaming => exact s.flat_alone .serverStreaming
    | _ => exact rfl

end UserDirectory.Call.Script
