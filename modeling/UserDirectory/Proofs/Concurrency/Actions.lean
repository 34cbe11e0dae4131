import UserDirectory.Proofs.Concurrency.Terms
/-!
# What the actions of the service come to

One rule for each action, on whatever terms it uses the store: what it asks for, in which order, and how
it ends for each reply.  Who wants to know what an action keeps looks here and not at its definition.
-/

namespace UserDirectory.Service

open UserDirectory.Call
open UserDirectory.Store (Operation StoreError)
open UserDirectory.Time (Instant)

variable {σ ο : Type} {T : Terms σ} {g : σ}

/-! ## §1. New users. -/

theorem abides_needId {id : UInt32} {Q : σ → Except ServiceError Unit → Prop} :
    (needId id : Action ο Unit).Abides T g Q
      ↔ if id = 0 then Q g (.error (.invalidArgument idRequired)) else Q g (.ok ()) := by
  unfold needId
  split <;> exact Iff.rfl

/-- The users are counted, and nothing else is asked. -/
theorem abides_checkFirst {u : User} {Q : σ → Except ServiceError Unit → Prop} :
    (checkFirst u : Action ο Unit).Abides T g Q
      ↔ T.allowed g .count ∧ ∀ r : Except StoreError Nat, T.promised g .count r →
          match r with
          | .error _ => Q (T.after g .count r) (.error (.internal "failed to check user count"))
          | .ok n =>
            if n = 0 ∧ u.role ≠ .admin then
              Q (T.after g .count r) (.error (.invalidArgument firstMustBeAdmin))
            else Q (T.after g .count r) (.ok ()) := by
  refine and_congr_right fun _ => forall_congr' fun (r : Except StoreError Nat) =>
    imp_congr_right fun _ => ?_
  rcases r with e | n
  · exact Iff.rfl
  · show Action.Abides T (if n = 0 ∧ u.role ≠ .admin then throw _ else pure ()) _ Q ↔ _
    simp only
    split <;> exact Iff.rfl

/-- After the count, the user is looked at and then added. -/
theorem abides_create {u : User} {Q : σ → Except ServiceError Unit → Prop} :
    (create u : Action ο Unit).Abides T g Q
      ↔ (checkFirst u : Action ο Unit).Abides T g fun g' r =>
          match r with
          | .error e => Q g' (.error e)
          | .ok () =>
            if u.id = 0 then Q g' (.error (.invalidArgument idRequired))
            else if u.username = "" then Q g' (.error (.invalidArgument usernameRequired))
            else T.allowed g' (.add u) ∧ ∀ r, T.promised g' (.add u) r →
              Q (T.after g' (.add u) r) (r.mapError ServiceError.ofStore) := by
  unfold create
  rw [Action.abides_bind]
  refine iff_of_eq (congrArg _ ?_)
  funext g' r
  cases r with
  | error e => rfl
  | ok _ =>
    simp only [Action.abides_bind, abides_needId]
    split
    · rfl
    · refine propext (Action.abides_ite.trans ?_)
      split
      · exact Iff.rfl
      · exact Action.abides_store

/-! ## §2. Stored users. -/

/-- The user is read, merged with the patch and written back whole. -/
theorem abides_updateUser {r : UpdateUserRequest} {Q : σ → Except ServiceError User → Prop} :
    (updateUser r : Action ο User).Abides T g Q
      ↔ match r.user with
        | none => Q g (.error (.invalidArgument "user is required"))
        | some patch =>
          if patch.id = 0 then Q g (.error (.invalidArgument idRequired))
          else (T.allowed g (.get patch.id) ∧
            ∀ found : Except StoreError User, T.promised g (.get patch.id) found →
            match found with
            | .error e => Q (T.after g (.get patch.id) found) (.error (.ofStore e))
            | .ok existing =>
              match User.merge existing patch r.updateMask with
              | .error e =>
                Q (T.after g (.get patch.id) found) (.error (.invalidArgument e.message))
              | .ok changed =>
                (T.allowed (T.after g (.get patch.id) found) (.update changed) ∧
                  ∀ done : Except StoreError Unit,
                    T.promised (T.after g (.get patch.id) found) (.update changed) done →
                    Q (T.after (T.after g (.get patch.id) found) (.update changed) done)
                      ((done.mapError ServiceError.ofStore).map fun _ => changed))
                ∧ Q (T.after g (.get patch.id) found) (.error .cancelled))
          ∧ Q g (.error .cancelled) := by
  unfold updateUser
  cases hu : r.user with
  | none => exact Iff.rfl
  | some patch =>
    show Action.Abides T (needId patch.id >>= _) g Q ↔ _
    rw [Action.abides_bind, abides_needId]
    simp only
    split
    · exact Iff.rfl
    · -- the read, unless the call has been cancelled
      rw [Action.abides_bind, Action.abides_ensureLive]
      refine and_congr_left fun _ => ?_
      refine and_congr_right fun _ => forall_congr' fun found => imp_congr_right fun _ => ?_
      cases found with
      | error e => exact Iff.rfl
      | ok existing =>
        show Action.Abides T (merged existing patch r.updateMask >>= _) _ Q ↔ _
        rw [Action.abides_bind]
        unfold merged
        simp only
        cases User.merge existing patch r.updateMask with
        | error e => exact Iff.rfl
        | ok changed =>
          -- the write, unless the call has been cancelled since
          show Action.Abides T (Action.ensureLive >>= _) _ Q ↔ _
          rw [Action.abides_bind, Action.abides_ensureLive]
          refine and_congr_left fun _ => ?_
          refine and_congr_right fun _ => forall_congr' fun done => imp_congr_right fun _ => ?_
          cases done <;> exact Iff.rfl

/-! ## §3. Reported activities. -/

/-- The user is read and written back whole, with another login. -/
theorem abides_touchLogin {id : UInt32} {at_ : Instant}
    {Q : σ → Except ServiceError (Except StoreError Unit) → Prop} :
    (touchLogin id at_ : Action ο (Except StoreError Unit)).Abides T g Q
      ↔ T.allowed g (.get id) ∧
          ∀ found : Except StoreError User, T.promised g (.get id) found →
          match found with
          | .error e => Q (T.after g (.get id) found) (.ok (.error e))
          | .ok u =>
            T.allowed (T.after g (.get id) found) (.update { u with lastLogin := some at_ }) ∧
            ∀ done : Except StoreError Unit,
              T.promised (T.after g (.get id) found) (.update { u with lastLogin := some at_ })
                done →
              Q (T.after (T.after g (.get id) found) (.update { u with lastLogin := some at_ })
                done) (.ok done) := by
  refine and_congr_right fun _ => forall_congr' fun found => imp_congr_right fun _ => ?_
  cases found <;> exact Iff.rfl

/-- A login happened as reported, or at whatever time the clock shows; a failure to record it is
no failure of the action. -/
theorem abides_recordLogin {a : UserActivity} {Q : σ → Except ServiceError Unit → Prop} :
    (recordLogin a : Action ο Unit).Abides T g Q
      ↔ ∀ at_, (∀ t, a.timestamp = some t → at_ = t) →
          (touchLogin a.userId at_ : Action ο _).Abides T g fun g' r => Q g' (r.map fun _ => ()) := by
  -- a failure is noted, and the action goes on as if there had been none
  have key : ∀ (after : Except StoreError Unit → Action ο Unit),
      (∀ r g', (after r).Abides T g' Q = Q g' (.ok ())) → ∀ at_ : Instant,
      ((touchLogin a.userId at_ >>= after).Abides T g Q
        ↔ (touchLogin a.userId at_ : Action ο _).Abides T g fun g' r => Q g' (r.map fun _ => ())) := by
    intro after hafter at_
    rw [Action.abides_bind]
    refine iff_of_eq (congrArg _ ?_)
    funext g' r
    cases r with
    | error e => rfl
    | ok r => exact hafter r g'
  unfold recordLogin loginInstant
  cases a.timestamp with
  | none =>
    -- the clock may show any time
    rw [Action.abides_bind]
    constructor
    · intro h at_ _
      exact (key _ (fun r g' => by cases r <;> rfl) at_).1 (h at_)
    · intro h at_
      exact (key _ (fun r g' => by cases r <;> rfl) at_).2 (h at_ fun _ hnone => by cases hnone)
  | some t =>
    -- there is only the time that is reported
    rw [Action.abides_bind]
    constructor
    · intro h at_ hat
      rw [hat t rfl]
      exact (key _ (fun r g' => by cases r <;> rfl) t).1 h
    · intro h
      exact (key _ (fun r g' => by cases r <;> rfl) t).2 (h t (by rintro _ ⟨⟩; rfl))

/-- It is asked whether the user is stored, and then a login is recorded. -/
theorem abides_recordActivity {a : UserActivity}
    {Q : σ → Except ServiceError UserActivityResponse → Prop} :
    (recordActivity a : Action ο UserActivityResponse).Abides T g Q
      ↔ T.allowed g (.contains a.userId) ∧
          ∀ known : Except StoreError Bool, T.promised g (.contains a.userId) known →
          match known with
          | .error e => Q (T.after g (.contains a.userId) known) (.error (.ofStore e))
          | .ok false =>
            ∀ now, Q (T.after g (.contains a.userId) known) (.ok (unknownUser a.userId now))
          | .ok true =>
            if a.kind = .login then
              (recordLogin a : Action ο Unit).Abides T (T.after g (.contains a.userId) known)
                fun g' r =>
                  match r with
                  | .error e => Q g' (.error e)
                  | .ok () => ∀ now, Q g' (.ok (recorded a now))
            else ∀ now, Q (T.after g (.contains a.userId) known) (.ok (recorded a now)) := by
  refine and_congr_right fun _ => forall_congr' fun known => imp_congr_right fun _ => ?_
  rcases known with e | known
  · exact Iff.rfl
  · cases known with
    | false => exact Iff.rfl
    | true =>
      show Action.Abides T (if a.kind = .login then _ else _) _ Q ↔ _
      simp only
      split
      · rw [Action.abides_bind]
        refine iff_of_eq (congrArg _ ?_)
        funext g' r
        cases r <;> rfl
      · exact Iff.rfl

/-! ## §4. Users brought in line. -/

/-- The user is read, and then replaced or created. -/
theorem abides_syncUser {u : User} {Q : σ → Except ServiceError (List String) → Prop} :
    (syncUser u : Action ο (List String)).Abides T g Q
      ↔ if u.id = 0 then Q g (.error (.invalidArgument idRequired))
        else T.allowed g (.get u.id) ∧
          ∀ found : Except StoreError User, T.promised g (.get u.id) found →
          match found with
          | .ok existing =>
            T.allowed (T.after g (.get u.id) found) (.update (keepCreation u existing)) ∧
            ∀ done : Except StoreError Unit,
              T.promised (T.after g (.get u.id) found) (.update (keepCreation u existing)) done →
                Q (T.after (T.after g (.get u.id) found) (.update (keepCreation u existing)) done)
                  ((done.mapError ServiceError.ofStore).map fun _ => replacedFields)
          | .error (.notFound _) =>
            (create u : Action ο Unit).Abides T (T.after g (.get u.id) found) fun g' r =>
              Q g' (r.map fun _ => createdFields)
          | .error e => Q (T.after g (.get u.id) found) (.error (.ofStore e)) := by
  unfold syncUser
  rw [Action.abides_bind, abides_needId]
  split
  · exact Iff.rfl
  · refine and_congr_right fun _ => forall_congr' fun found => imp_congr_right fun _ => ?_
    rcases found with e | existing
    · cases e with
      | notFound id =>
        -- only a user that is missing is created
        show Action.Abides T (create u >>= _) _ Q ↔ _
        rw [Action.abides_bind]
        refine iff_of_eq (congrArg _ ?_)
        funext g' r
        cases r <;> rfl
      | alreadyExists id => exact Iff.rfl
      | usernameTaken name => exact Iff.rfl
      | invalidArgument message => exact Iff.rfl
      | database failure => exact Iff.rfl
      | corrupt column => exact Iff.rfl
    · -- and one that is there is replaced
      refine and_congr_right fun _ => forall_congr' fun done => imp_congr_right fun _ => ?_
      cases done <;> exact Iff.rfl

/-! ## §5. Listings. -/

/-- Whoever sends users asks nothing of the store. -/
theorem abides_sendAll {users : List User} {Q : σ → Except ServiceError Unit → Prop}
    (hok : Q g (.ok ())) (hgone : Q g (.error .cancelled)) :
    (sendAll users).Abides T g Q := by
  induction users with
  | nil => exact hok
  | cons u more ih =>
    unfold sendAll
    rw [Action.abides_bind, Action.abides_ensureLive]
    refine ⟨?_, hgone⟩
    show Action.Abides T (Action.send u >>= _) g Q
    rw [Action.abides_bind, Action.abides_send]
    exact ⟨ih, hgone⟩

end UserDirectory.Service
