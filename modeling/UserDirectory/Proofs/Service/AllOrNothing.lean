import UserDirectory.Proofs.Call.Atomic
import UserDirectory.Proofs.Service.Syncing
import UserDirectory.Proofs.User.MergeLaws
/-!
# Calls about one user do all or nothing

Each of the four calls about one user looks at its request, asks questions, and asks for one change at
most, and that last.  So wherever it fails or is cut short, nothing has changed; and if it gives a result,
then of all users only the one that it is about has changed.

Main statements:
  * `atomic_addUser`, `atomic_getUser`, `atomic_updateUser`, `atomic_deleteUser`;
  * `updateUser_cases`, `deleteUser_cases`, `ends_getUser`: how they end;
  * `unary_calls_all_or_nothing`: what has become of the table when they have.
-/

namespace UserDirectory.Service

open UserDirectory.Call
open UserDirectory.Store (Operation Table withDefaults)
open UserDirectory.Telemetry (Note)
open UserDirectory.Time (Instant)

variable {ο : Type} {hindered : Bool} {t t' : Table} {sent : List ο} {u : User}

/-! ## §1. One change at most. -/

theorem asks_needId (allowed : Operation → Prop) (id : UInt32) :
    (needId id : Action ο Unit).Asks allowed :=
  Action.asks_ite (Action.asks_throw _) (Action.asks_pure _)

/-- Of the first user nothing is asked but how many there are. -/
theorem asks_checkFirst (u : User) :
    (checkFirst u : Action ο Unit).Asks (changes · = false) := by
  refine Action.asks_bind (Action.asks_bind (Action.asks_attempt rfl) fun r => ?_) fun n => ?_
  · cases r with
    | ok n => exact Action.asks_pure n
    | error e => exact Action.asks_bind (Action.asks_note _) fun _ => Action.asks_throw _
  · exact Action.asks_ite (Action.asks_throw _) (Action.asks_pure _)

theorem atomic_create (u : User) : (create u : Action ο Unit).Atomic := by
  refine (asks_checkFirst u).bind_atomic fun _ => ?_
  refine (asks_needId _ u.id).bind_atomic fun _ => ?_
  exact Action.atomic_ite (Action.atomic_throw _) (Action.atomic_store _)

theorem atomic_addUser (u : User) : (addUser u : Action ο Unit).Atomic := by
  refine Action.asks_ensureLive.bind_atomic fun _ => ?_
  exact (atomic_create u).bind_asks fun _ => Action.asks_note _

theorem atomic_getUser (r : GetUserRequest) : (getUser r : Action ο User).Atomic := by
  refine Action.asks_ensureLive.bind_atomic fun _ => ?_
  exact (asks_needId _ r.id).bind_atomic fun _ => Action.atomic_store _

theorem atomic_updateUser (r : UpdateUserRequest) : (updateUser r : Action ο User).Atomic := by
  unfold updateUser
  cases r.user with
  | none => exact Action.atomic_throw _
  | some patch =>
    show Action.Atomic (needId patch.id >>= _)
    refine (asks_needId _ patch.id).bind_atomic fun _ => ?_
    refine Action.asks_ensureLive.bind_atomic fun _ => ?_
    refine Action.Asks.bind_atomic (Action.asks_store rfl) fun (existing : User) => ?_
    -- what is made of the user that has been read is a matter of the mask alone
    cases hmerge : User.merge existing patch r.updateMask with
    | error e =>
      rw [merged_of_error hmerge]
      exact Action.atomic_throw _
    | ok changed =>
      rw [merged_of_ok hmerge]
      refine Action.asks_ensureLive.bind_atomic fun _ => ?_
      refine (Action.atomic_store (.update changed)).bind_asks fun _ => ?_
      exact Action.asks_bind (Action.asks_note _) fun _ => Action.asks_pure _

theorem atomic_deleteUser (r : DeleteUserRequest) : (deleteUser r : Action ο Unit).Atomic := by
  refine Action.asks_ensureLive.bind_atomic fun _ => ?_
  refine (asks_needId _ r.id).bind_atomic fun _ => ?_
  exact (Action.atomic_store (.delete r.id)).bind_asks fun _ => Action.asks_note _

/-! ## §2. How they end. -/

/-- The user with a number is read, or there is none. -/
theorem ends_read {id : UInt32} {x : Except ServiceError User} :
    (Action.store (.get id) : Action ο User).Ends hindered t sent t' x
      ↔ sent = [] ∧ t' = t ∧ x = (t.fetch id).mapError ServiceError.ofStore := by
  refine Action.ends_store.trans ?_
  show (∃ _ : Instant, sent = [] ∧ t' = t ∧ x = (t.fetch id).mapError ServiceError.ofStore) ↔ _
  rw [exists_const]

/-- Only a hindered call gives up before a user is read. -/
theorem ends_getUser {r : GetUserRequest} {x : Except ServiceError User} :
    (getUser r : Action ο User).Ends hindered t sent t' x
      ↔ (sent = [] ∧ t' = t
          ∧ x = if r.id = 0 then .error (.invalidArgument idRequired)
            else (t.fetch r.id).mapError ServiceError.ofStore)
        ∨ (hindered = true ∧ sent = [] ∧ t' = t ∧ x = .error .cancelled) := by
  refine Action.ends_ensureLive_bind.trans (or_congr_left ?_)
  refine (Action.ends_check fun _ _ _ => ends_needId).trans ?_
  by_cases hid : r.id = 0
  · simp only [if_pos hid]
  · simp only [if_neg hid]
    exact ends_read

/-- A stored user can be read. -/
theorem ends_getUser_of_get?_eq_some {id : UInt32} {x : Except ServiceError User} (hid : id ≠ 0)
    (hget : t.get? id = some u) :
    (getUser ⟨id⟩ : Action ο User).Ends false t sent t' x ↔ sent = [] ∧ t' = t ∧ x = .ok u := by
  rw [ends_getUser, if_neg hid, Table.fetch_eq_ok_iff.2 hget]
  exact or_iff_left fun h => Bool.false_ne_true h.1

theorem ne_zero_of_needId {id : UInt32} {b : Unit}
    (h : (if id = 0 then .error (.invalidArgument idRequired) else .ok () : Except ServiceError Unit)
      = .ok b) : id ≠ 0 := by
  rintro rfl
  cases h

theorem read_eq_ok_iff {id : UInt32} :
    (t.fetch id).mapError ServiceError.ofStore = .ok u ↔ t.get? id = some u :=
  mapError_eq_ok.trans Table.fetch_eq_ok_iff

/-- Giving a user fails, or the user is stored; and nothing changes. -/
theorem getUser_cases {r : GetUserRequest} {x : Except ServiceError User}
    (h : (getUser r : Action ο User).Ends hindered t sent t' x) :
    FailsUnchanged t t' x ∨ ∃ u, x = .ok u ∧ t.get? r.id = some u ∧ t' = t := by
  rcases ends_getUser.1 h with ⟨_, rfl, hx⟩ | ⟨_, _, rfl, rfl⟩
  · split at hx
    · exact .inl ⟨⟨_, hx⟩, rfl⟩
    · cases x with
      | error e => exact .inl ⟨⟨e, rfl⟩, rfl⟩
      | ok u => exact .inr ⟨u, rfl, read_eq_ok_iff.1 hx.symm, rfl⟩
  · exact .inl ⟨⟨_, rfl⟩, rfl⟩

/-- Storing a changed user fails and changes nothing, or the user is stored and given. -/
theorem writeBack_cases {line : Note} {x : Except ServiceError User}
    (h : (do
      Action.ensureLive
      Action.store (.update u)
      Action.note line
      pure u : Action ο User).Ends hindered t sent t' x) :
    FailsUnchanged t t' x ∨ (x = .ok u ∧ t' = t.insert u.id u) := by
  refine (Action.failsUnchanged_or_of_ensureLive h).elim .inl fun h => ?_
  obtain ⟨_, hstore, rfl⟩ := (Action.ends_map (g := fun _ => u) fun _ _ _ _ _ => Iff.rfl).1 h
  obtain ⟨now, rfl, rfl, rfl⟩ := Action.ends_store.1 hstore
  obtain ⟨_, _, _, hdone⟩ | ⟨e, hfailed⟩ := Table.perform_update_cases t now u
  · rw [hdone]
    exact .inr ⟨rfl, rfl⟩
  · rw [hfailed]
    exact .inl ⟨⟨_, rfl⟩, rfl⟩

/-- Changing a user fails and changes nothing, or stores a user who is merged from the stored one and the
patch, and gives that user. -/
theorem updateUser_cases {r : UpdateUserRequest} {x : Except ServiceError User}
    (h : (updateUser r : Action ο User).Ends hindered t sent t' x) :
    FailsUnchanged t t' x
    ∨ ∃ patch existing changed, r.user = some patch ∧ patch.id ≠ 0 ∧ t.get? patch.id = some existing
        ∧ User.merge existing patch r.updateMask = .ok changed
        ∧ x = .ok changed ∧ t' = t.insert changed.id changed := by
  unfold updateUser at h
  cases hpatch : r.user with
  | none =>
    rw [hpatch] at h
    obtain ⟨_, rfl, rfl⟩ := h
    exact .inl ⟨⟨_, rfl⟩, rfl⟩
  | some patch =>
    rw [hpatch] at h
    -- whichever check fails, nothing has been stored by then
    refine (Action.failsUnchanged_or_of_check (fun _ _ _ => ends_needId) h).elim .inl ?_
    rintro ⟨_, hid, h⟩
    refine (Action.failsUnchanged_or_of_ensureLive h).elim .inl fun h => ?_
    refine (Action.failsUnchanged_or_of_check (fun _ _ _ => ends_read) h).elim .inl ?_
    rintro ⟨existing, hread, h⟩
    cases hmerge : User.merge existing patch r.updateMask with
    | error e =>
      rw [merged_of_error hmerge] at h
      obtain ⟨_, rfl, rfl⟩ := h
      exact .inl ⟨⟨_, rfl⟩, rfl⟩
    | ok changed =>
      rw [merged_of_ok hmerge] at h
      refine (writeBack_cases h).imp_right fun ⟨hx, ht'⟩ => ?_
      exact ⟨patch, existing, changed, rfl, ne_zero_of_needId hid, read_eq_ok_iff.1 hread, hmerge, hx, ht'⟩

/-- Removing a user fails and changes nothing, or the user was stored and is not any more. -/
theorem deleteUser_cases {r : DeleteUserRequest} {x : Except ServiceError Unit}
    (h : (deleteUser r : Action ο Unit).Ends hindered t sent t' x) :
    FailsUnchanged t t' x ∨ ∃ u, t.get? r.id = some u ∧ x = .ok () ∧ t' = t.erase r.id := by
  refine (Action.failsUnchanged_or_of_ensureLive h).elim .inl fun h => ?_
  refine (Action.failsUnchanged_or_of_check (fun _ _ _ => ends_needId) h).elim .inl ?_
  rintro ⟨_, _, h⟩
  -- what is noted of a success changes nothing
  obtain ⟨_, hstore, rfl⟩ := (Action.ends_map fun _ _ _ _ _ => Action.ends_note).1 h
  obtain ⟨now, rfl, rfl, rfl⟩ := Action.ends_store.1 hstore
  obtain ⟨u, hget, hdone⟩ | ⟨e, hfailed⟩ := Table.perform_delete_cases t now r.id
  · rw [hdone]
    exact .inr ⟨u, hget, rfl, rfl⟩
  · rw [hfailed]
    exact .inl ⟨⟨_, rfl⟩, rfl⟩

/-! ## §3. All or nothing. -/

/-- Of a table only what stands under one number is altered. -/
def AltersOnly (t : Table) (k : UInt32) (v : Option User) (t' : Table) : Prop :=
  ∀ l, t'.get? l = if l = k then v else t.get? l

theorem altersOnly_insert (t : Table) (k : UInt32) (u : User) :
    AltersOnly t k (some u) (t.insert k u) := fun l => SortedMap.get?_insert t k l u

theorem allOrNothing_addUser (t : Table) (u : User) :
    AllOrNothing t (addUser u) fun _ t' =>
      t.get? u.id = none ∧ ∃ now, AltersOnly t u.id (some (withDefaults u now)) t' := by
  refine allOrNothing_of_ends (atomic_addUser u) fun t' x h => ?_
  rcases addUser_cases h with ⟨e, rfl, rfl⟩ | ⟨rfl, hnone, now, rfl⟩
  · exact .inl ⟨⟨e, rfl⟩, rfl⟩
  · exact .inr ⟨(), rfl, hnone, now, altersOnly_insert t u.id _⟩

theorem allOrNothing_getUser (t : Table) (r : GetUserRequest) :
    AllOrNothing t (getUser r) fun u t' => t.get? r.id = some u ∧ t' = t :=
  allOrNothing_of_ends (atomic_getUser r) fun _ _ => getUser_cases

/-- In an orderly table the user who is changed is the one whose number the patch has. -/
theorem allOrNothing_updateUser (ht : t.Tidy) (r : UpdateUserRequest) :
    AllOrNothing t (updateUser r) fun u t' =>
      ∃ patch existing, r.user = some patch ∧ patch.id ≠ 0 ∧ t.get? patch.id = some existing
        ∧ User.merge existing patch r.updateMask = .ok u ∧ AltersOnly t patch.id (some u) t' := by
  refine allOrNothing_of_ends (atomic_updateUser r) fun t' x h => (updateUser_cases h).imp_right ?_
  rintro ⟨patch, existing, changed, hpatch, hid, hget, hmerge, hx, rfl⟩
  have hsame : changed.id = patch.id :=
    (User.merge_eq_ok_iff_same.1 hmerge).2.1.trans (ht.id_eq patch.id existing hget)
  rw [hsame]
  exact ⟨changed, hx, patch, existing, hpatch, hid, hget, hmerge, altersOnly_insert t patch.id changed⟩

theorem allOrNothing_deleteUser (t : Table) (r : DeleteUserRequest) :
    AllOrNothing t (deleteUser r) fun _ t' =>
      (∃ u, t.get? r.id = some u) ∧ AltersOnly t r.id none t' := by
  refine allOrNothing_of_ends (atomic_deleteUser r) fun t' x h => (deleteUser_cases h).imp_right ?_
  rintro ⟨u, hget, hx, rfl⟩
  exact ⟨(), hx, ⟨u, hget⟩, SortedMap.get?_erase t r.id⟩

/-- What has become of the table when a call about one user, undisturbed and whenever it is cancelled, has
come to its end.  If it has failed, or has not ended yet, the table is as it was; else only the user is
altered whom the call is about. -/
theorem unary_calls_all_or_nothing (ht : t.Reachable) :
    (∀ u, AllOrNothing t (addUser u) fun _ t' =>
      t.get? u.id = none
      ∧ ∃ now, AltersOnly t u.id (some { u with
          createDate := some (u.createDate.getD now), status := some (u.status.getD .active) }) t')
    ∧ (∀ r, AllOrNothing t (getUser r) fun u t' => t.get? r.id = some u ∧ t' = t)
    ∧ (∀ r, AllOrNothing t (updateUser r) fun u t' =>
      ∃ patch existing, r.user = some patch ∧ t.get? patch.id = some existing
        ∧ User.merge existing patch r.updateMask = .ok u ∧ AltersOnly t patch.id (some u) t'
        ∧ (AllOrNothing t' (getUser ⟨patch.id⟩) fun v t'' => v = u ∧ t'' = t')
        ∧ ∀ sent t'' x, (getUser ⟨patch.id⟩ : Call.Action Empty User).Ends false t' sent t'' x
            ↔ sent = [] ∧ t'' = t' ∧ x = .ok u)
    ∧ ∀ r, AllOrNothing t (deleteUser r) fun _ t' =>
      (∃ u, t.get? r.id = some u) ∧ AltersOnly t r.id none t' := by
  refine ⟨allOrNothing_addUser t, allOrNothing_getUser t, fun r => ?_, allOrNothing_deleteUser t⟩
  refine (allOrNothing_updateUser ht.tidy r).imp ?_
  rintro u t' ⟨patch, existing, hpatch, hid, hget, hmerge, halters⟩
  -- who asks next finds the user who was given
  have hstored : t'.get? patch.id = some u := (halters patch.id).trans (if_pos rfl)
  refine ⟨patch, existing, hpatch, hget, hmerge, halters, ?_, fun _ _ _ =>
    ends_getUser_of_get?_eq_some hid hstored⟩
  refine (allOrNothing_getUser t' ⟨patch.id⟩).imp ?_
  rintro v t'' ⟨hv, hsame⟩
  exact ⟨Option.some.inj (hv.symm.trans hstored), hsame⟩

/-- Another mail address for the admin, and no telephone number. -/
def mailRequest : UpdateUserRequest :=
  ⟨some { knownAdmin with email := some "ada@example", phone := none }, ["email"]⟩

/-- A call by which the mail address is changed. -/
def mailCall : Exchange Empty Empty Unit User :=
  .start .served none (.start (.ofAction (updateUser mailRequest)) .empty
    { CallState.start ((Request.updateUser mailRequest).context none) .nothing
        (.ofCapacity 1 ⟨none, true, [], none⟩) 0 with cancelled := false })

/-- A world in which the store takes some milliseconds to store a changed user. -/
def slowWorld : World := .start .epoch none ⟨.memory knownAdminTable, [⟨"update", 0, 1, 5, false, none⟩], []⟩

/-- The call waits for the store.  If it is cancelled meanwhile, nothing has changed.  If time goes by and
somebody else reads the admin, the mail address has changed, and the telephone number has not. -/
theorem unary_calls_all_or_nothing_slow :
    (∃ e w s, Exchange.GoesUndisturbed (mailCall, slowWorld) (e, w)
      ∧ e.phase = .ended (.error .cancelled) s ∧ w.Holds knownAdminTable)
    ∧ ∃ e w u s t', Exchange.GoesUndisturbed (mailCall, slowWorld) (e, w)
      ∧ e.phase = .ended (.ok u) s ∧ w.Holds t' ∧ t'.get? 1 = some u
      ∧ u.email = some "ada@example" ∧ u.phone = knownAdmin.phone := by
  have hreachable : knownAdminTable.Reachable := .perform .empty .epoch (.add knownAdmin)
  obtain ⟨_, _, hupdate, _⟩ := unary_calls_all_or_nothing hreachable
  have hcall := (hupdate mailRequest).executed .served none .empty
    ((Request.updateUser mailRequest).context none) .nothing false
    (.ofCapacity 1 ⟨none, true, [], none⟩) slowWorld
  have hslow : slowWorld.Holds knownAdminTable := ⟨rfl, fun f hf => by cases List.mem_singleton.1 hf; rfl⟩
  have hwaits := (Exchange.Goes.refl.move (.work mailCall slowWorld)).undisturbed
  constructor
  · have hcancelled := hwaits.move (.cancel (mailCall.work slowWorld).1 (mailCall.work slowWorld).2)
    have hgoes := hcancelled.move
      (.work (mailCall.work slowWorld).1.cancel (mailCall.work slowWorld).2)
    exact ⟨_, _, _, hgoes, rfl, hcall _ _ hslow hgoes⟩
  · have hlater := hwaits.meanwhile { (mailCall.work slowWorld).2 with clock := 5 }
      fun _ hw => hw.of_backend rfl
    have hgoes := (hlater.others .epoch (.get 1) rfl).move (.work _ _)
    obtain ⟨t', hw', patch, _, hpatch, _, _, halters, _⟩ := hcall _ _ hslow hgoes
    cases hpatch
    exact ⟨_, _, _, _, t', hgoes, rfl, hw', (halters 1).trans (if_pos rfl), rfl, rfl⟩

end UserDirectory.Service
