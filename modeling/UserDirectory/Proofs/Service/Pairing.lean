import UserDirectory.Proofs.Call.Pairing
import UserDirectory.Proofs.Concurrency.Actions
import UserDirectory.Proofs.Service.Nesting
/-!
# Streams that are answered one by one

Users that are to be brought in line and activities that are reported are answered one by one, each
before the next one is taken; what they leave in the store is what each of them asks for.

Main statements:
  * `syncUsers_eq_ofAnswers`, `userActivityStream_eq_ofAnswers`: both handlers are of one form;
  * `meets_syncing`, `meets_reporting`: what their answers are about and what they change;
  * `streams_pair_strictly`: requests and responses come in pairs.
-/

namespace UserDirectory.Service

open UserDirectory.Call
open UserDirectory.Store (Operation StoreError Table)
open UserDirectory.Time (Instant)

variable {ο : Type}

/-! ## §1. What is asked for. -/

/-- The table after a user has been brought in line.  A stored user is replaced and keeps the date of
creation where none is given.  Another is added if it has a number and a name, and if it is an admin
or not the first; and neither is done against the rules of the store. -/
def synced (now : Instant) (u : User) (t : Table) : Table :=
  if u.id = 0 then t
  else
    match t.get? u.id with
    | some existing => (t.perform now (.update (keepCreation u existing))).2
    | none =>
      if (t.size = 0 ∧ u.role ≠ .admin) ∨ u.username = "" then t
      else (t.perform now (.add u)).2

/-- The table after an activity has been reported: only a login of a stored user is kept, with the time
that is reported or any other. -/
def reported (now : Instant) (a : UserActivity) (t : Table) : Table :=
  match t.get? a.userId with
  | some u =>
    if a.kind = .login then
      (t.perform now (.update { u with lastLogin := some (a.timestamp.getD now) })).2
    else t
  | none => t

/-- Users and what is answered to them. -/
def syncing : Pairing User SyncUserResponse := ⟨User.id, SyncUserResponse.userId, synced⟩

/-- Activities and what is answered to them. -/
def reporting : Pairing UserActivity UserActivityResponse :=
  ⟨UserActivity.userId, UserActivityResponse.userId, reported⟩

/-! ## §2. What is done. -/

/-- Brings a user in line and makes the answer. -/
def syncResponse (u : User) : Action SyncUserResponse SyncUserResponse := do
  let outcome ← Action.outcome (syncUser u)
  if outcome matches .error .cancelled then throw .cancelled
  pure (syncAnswer u.id outcome)

theorem syncUsers_eq_ofAnswers : syncUsers = .ofAnswers syncResponse := by
  have hitem : ∀ kept u, syncItem kept u = (do
      Action.ensureLive
      let y ← syncResponse u
      Action.send y) := by
    intro kept u
    unfold syncItem syncResponse
    simp only [bind_assoc]
    congr 1
    funext _
    congr 1
    funext outcome
    split <;> simp
  unfold syncUsers Handler.ofAnswers
  congr 1
  funext kept u
  exact hitem kept u

theorem userActivityStream_eq_ofAnswers : userActivityStream = .ofAnswers recordActivity := rfl

theorem quiet_syncResponse (u : User) : (syncResponse u).Quiet 4 :=
  Action.quiet_bind (m := 0) (Action.quiet_outcome (quiet_syncUser u)) fun _ =>
    Action.quiet_when (n := 0) (m := 0) (Action.quiet_throw _) fun _ => Action.quiet_pure _

/-! ## §3. What is changed by it. -/

theorem ofStore_ne_cancelled (e : StoreError) : ServiceError.ofStore e ≠ .cancelled := by
  cases e <;> exact nofun

/-- What brings a user in line changes the table once at most, and as it is asked for; it never gives
up. -/
theorem abides_syncUser_once (u : User) (t : Table) :
    (syncUser u : Action ο (List String)).Abides (.once t fun t' => ∃ now, t' = synced now u t) false
      fun changed r => r ≠ .error .cancelled ∧ (changed = false → ∃ now, t = synced now u t) := by
  rw [abides_syncUser]
  by_cases hid : u.id = 0
  · rw [if_pos hid]
    refine ⟨nofun, fun _ => ⟨.epoch, ?_⟩⟩
    rw [synced, if_pos hid]
  · rw [if_neg hid]
    refine ⟨⟨rfl, nofun⟩, fun found hfound => ?_⟩
    have hfetch : found = t.fetch u.id := hfound.elim fun _ h => h
    unfold Table.fetch at hfetch
    cases hget : t.get? u.id with
    | some existing =>
      rw [hget] at hfetch
      subst hfetch
      refine ⟨⟨rfl, fun _ now => ⟨now, ?_⟩⟩, fun done _ => ⟨?_, nofun⟩⟩
      · rw [synced, if_neg hid, hget]
      · cases done with
        | ok _ => exact nofun
        | error e => exact fun h => ofStore_ne_cancelled e (Except.error.inj h)
    | none =>
      rw [hget] at hfetch
      subst hfetch
      show Action.Abides _ (create u : Action ο Unit) _ _
      rw [abides_create, abides_checkFirst]
      refine ⟨⟨rfl, nofun⟩, fun counted hcounted => ?_⟩
      have hcount : counted = .ok t.size := hcounted.elim fun _ h => h
      subst hcount
      simp only
      by_cases hfirst : t.size = 0 ∧ u.role ≠ .admin
      · rw [if_pos hfirst]
        refine ⟨nofun, fun _ => ⟨.epoch, ?_⟩⟩
        rw [synced, if_neg hid, hget]
        exact (if_pos (.inl hfirst)).symm
      · rw [if_neg hfirst]
        simp only [if_neg hid]
        by_cases hname : u.username = ""
        · rw [if_pos hname]
          refine ⟨nofun, fun _ => ⟨.epoch, ?_⟩⟩
          rw [synced, if_neg hid, hget]
          exact (if_pos (.inr hname)).symm
        · rw [if_neg hname]
          refine ⟨⟨rfl, fun _ now => ⟨now, ?_⟩⟩, fun done _ => ⟨?_, nofun⟩⟩
          · rw [synced, if_neg hid, hget]
            exact (if_neg (not_or.2 ⟨hfirst, hname⟩)).symm
          · cases done with
            | ok _ => exact nofun
            | error e => exact fun h => ofStore_ne_cancelled e (Except.error.inj h)

/-- What is done for a user makes an answer about the user. -/
theorem meets_syncing : syncing.Meets syncResponse 4 where
  quiet := quiet_syncResponse
  once u t := by
    unfold syncResponse
    rw [Action.abides_bind, Action.abides_outcome]
    refine (abides_syncUser_once u t).mono fun changed outcome h => ?_
    obtain ⟨hcancelled, heffect⟩ := h
    rcases outcome with e | fields
    · cases e with
      | cancelled => exact absurd rfl hcancelled
      | _ => exact ⟨syncAnswer u.id _, rfl, rfl, heffect⟩
    · exact ⟨syncAnswer u.id _, rfl, rfl, heffect⟩

/-- What is done for an activity makes an answer about the user, and changes the table once at most, as it
is asked for. -/
theorem meets_reporting : reporting.Meets recordActivity 6 where
  quiet := quiet_recordActivity
  once a t := by
    rw [abides_recordActivity]
    refine ⟨⟨rfl, nofun⟩, fun known hknown => ?_⟩
    have hcontains : known = .ok (SortedMap.contains t a.userId) := hknown.elim fun _ h => h
    subst hcontains
    unfold SortedMap.contains
    -- as long as nothing is changed, that is what is asked for
    have hsame : ∀ r : Except ServiceError UserActivityResponse, (∃ y, r = .ok y ∧ y.userId = a.userId) →
        (∀ now, reported now a t = t) → reporting.Answered a t false r := fun r hr hreported =>
      hr.imp fun y hy => ⟨hy.1, hy.2, fun _ => ⟨.epoch, (hreported .epoch).symm⟩⟩
    cases hget : t.get? a.userId with
    | none =>
      refine fun now => hsame _ ⟨_, rfl, rfl⟩ fun now => ?_
      unfold reported
      rw [hget]
    | some u =>
      show if a.kind = .login then _ else _
      by_cases hkind : a.kind = .login
      · rw [if_pos hkind, abides_recordLogin]
        intro at_ hat
        have hwhen : a.timestamp.getD at_ = at_ := by
          cases ht : a.timestamp with
          | none => rfl
          | some t => exact (hat t ht).symm
        rw [abides_touchLogin]
        refine ⟨⟨rfl, nofun⟩, fun found hfound => ?_⟩
        have hfetch : found = t.fetch a.userId := hfound.elim fun _ h => h
        unfold Table.fetch at hfetch
        rw [hget] at hfetch
        subst hfetch
        refine ⟨⟨rfl, fun _ now => ⟨at_, ?_⟩⟩, fun done _ now => ⟨_, rfl, rfl, nofun⟩⟩
        show _ = reported at_ a t
        unfold reported
        rw [hget]
        simp only [if_pos hkind]
        rw [hwhen]
        rfl
      · rw [if_neg hkind]
        refine fun now => hsame _ ⟨_, rfl, rfl⟩ fun now => ?_
        unfold reported
        rw [hget]
        exact if_neg hkind

/-! ## §4. Pairs. -/

/-- Users that are brought in line and activities that are reported are answered strictly one by one. -/
theorem streams_pair_strictly :
    syncUsers.PairsStrictly syncing ∧ userActivityStream.PairsStrictly reporting := by
  rw [syncUsers_eq_ofAnswers, userActivityStream_eq_ofAnswers]
  exact ⟨meets_syncing.pairsStrictly, meets_reporting.pairsStrictly⟩

/-- An admin, somebody without a number, and a member. -/
def threeUsers : Inbound User :=
  .ofArrivals
    [⟨.ok ⟨1, "ada", .admin, none, none, none, none, [], .empty, [], none, none⟩, 0⟩,
      ⟨.ok ⟨0, "bob", .member, none, none, none, none, [], .empty, [], none, none⟩, 0⟩,
      ⟨.ok ⟨2, "eve", .member, none, none, none, none, [], .empty, [], none, none⟩, 0⟩] false

/-- A call by which they are brought in line, through a channel with room for one response. -/
def threeUsersCall : Exchange User SyncUserResponse Unit Unit :=
  .start .served none (.start syncUsers threeUsers
    { CallState.start ((Request.syncUsers threeUsers).context none) .nothing
        (.ofCapacity 1 ⟨none, true, [], none⟩) 0 with cancelled := false })

/-- The caller reads three responses and comes to the end. -/
theorem streams_pair_strictly_three_users :
    (∃ e w, Exchange.Goes (threeUsersCall, .start .epoch none .empty) (e, w)
      ∧ e.state.outbound.reader.messages.map (·.userId) = [1, 0, 2]
      ∧ e.state.outbound.reader.ending = some .closed
      ∧ ∃ s : Alone User SyncUserResponse Unit Unit, s.Shows e w ∧ s.Paired syncing threeUsers .empty
        ∧ s.Complete syncing threeUsers .empty)
    ∧ (Alone.start syncUsers true threeUsers (.ofCapacity 1 ⟨none, true, [], none⟩) .empty).Inevitably
        (·.Complete syncing threeUsers .empty) := by
  have hregular : threeUsers.Regular := by
    refine ⟨fun a ha => ?_, rfl⟩
    rcases List.mem_cons.1 ha with rfl | ha
    · exact ⟨_, rfl⟩
    · rcases List.mem_cons.1 ha with rfl | ha
      · exact ⟨_, rfl⟩
      · cases List.mem_singleton.1 ha
        exact ⟨_, rfl⟩
  refine ⟨?_, streams_pair_strictly.1.inevitable true threeUsers 1 none true .empty hregular⟩
  have hwork := Exchange.Goes.refl.move (.work threeUsersCall (.start .epoch none .empty))
  have hgoes := hwork.move (.read (threeUsersCall.work (.start .epoch none .empty)).1
    (threeUsersCall.work (.start .epoch none .empty)).2)
  have hshown := streams_pair_strictly.1.executed .served none threeUsers
    ((Request.syncUsers threeUsers).context none) .nothing false 1 none true (.start .epoch none .empty)
    _ .empty _ nofun ⟨rfl, nofun⟩ hgoes
  refine ⟨_, _, hgoes, by decide +kernel, by decide +kernel, ?_⟩
  exact hshown.imp fun s h => ⟨h.2.1, streams_pair_strictly.1.always _ _ _ _ _ _ s h.1,
    h.2.2.1 _ rfl (by decide +kernel)⟩

end UserDirectory.Service
