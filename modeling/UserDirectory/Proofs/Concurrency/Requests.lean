import UserDirectory.Proofs.Concurrency.Actions
import UserDirectory.Proofs.User.Merging
/-!
# What the requests write

Of all that the nine requests ask of the store, only five things change a user there: a new user is
added, a user is removed, a stored user is merged with a patch, gets another login, or is replaced by
one brought in line.  Whoever wants to know that all requests keep something looks at these and at
nothing else.

Main statement: `Request.abides_of_allows`, a request abides by terms that allow what it writes.
-/

namespace UserDirectory.Service

open UserDirectory.Call
open UserDirectory.Store (Operation StoreError)

/-! ## §1. What may be written. -/

/-- Whether an operation writes no user. -/
def WritesNoUser : Operation → Prop
  | .add _ => False
  | .update _ => False
  | _ => True

/-- The terms allow what a request writes. -/
structure Allows (T : Terms Unit) (r : Request) : Prop where
  reads : ∀ op, WritesNoUser op → T.allowed () op
  /-- a new user has a number and a name, and is an admin unless others have been counted -/
  adds : ∀ u (n : Nat), T.promised () .count (.ok n) → ¬ (n = 0 ∧ u.role ≠ .admin) → u.id ≠ 0 →
    u.username ≠ "" → T.allowed () (.add u)
  /-- a stored user gets another login -/
  logins : ∀ id (u : User) at_, T.promised () (.get id) (.ok u) →
    T.allowed () (.update { u with lastLogin := some at_ })
  /-- a stored user is merged with the patch of the request -/
  merges : ∀ q patch (existing : User) changed, r = .updateUser q → q.user = some patch →
    T.promised () (.get patch.id) (.ok existing) →
    User.merge existing patch q.updateMask = .ok changed → T.allowed () (.update changed)
  /-- a stored user is replaced by one that arrives -/
  replaces : ∀ users a u (existing : User), r = .syncUsers users → a ∈ users.arrivals →
    a.content = .ok u → T.promised () (.get u.id) (.ok existing) →
    T.allowed () (.update (keepCreation u existing))

/-! ## §2. The actions. -/

/-- An action abides by the terms, however it ends. -/
abbrev Obeys {ο α : Type} (T : Terms Unit) (a : Action ο α) : Prop := a.Abides T () fun _ _ => True

section Actions

variable {ο : Type} {T : Terms Unit} {r : Request}

/-- Only a user with a number and a name is added, after the others have been counted. -/
theorem obeys_create (h : Allows T r) (u : User) : Obeys T (create u : Action ο Unit) := by
  unfold Obeys
  rw [abides_create, abides_checkFirst]
  refine ⟨h.reads _ trivial, fun found hfound => ?_⟩
  rcases found with e | n
  · exact trivial
  · simp only
    split
    · exact trivial
    · rename_i hfirst
      show if u.id = 0 then True else _
      split
      · exact trivial
      · rename_i hid
        split
        · exact trivial
        · -- the number and the name have been looked at before the user is added
          rename_i hname
          exact ⟨h.adds u n hfound hfirst hid hname, fun _ _ => trivial⟩

theorem obeys_addUser (h : Allows T r) (u : User) : Obeys T (addUser u : Action ο Unit) := by
  unfold Obeys addUser
  rw [Action.abides_bind, Action.abides_ensureLive]
  refine ⟨?_, trivial⟩
  show Action.Abides T (create u >>= _) () _
  rw [Action.abides_bind]
  refine (obeys_create h u).mono fun _ r _ => ?_
  cases r <;> exact trivial

theorem obeys_getUser (h : Allows T r) (q : GetUserRequest) : Obeys T (getUser q : Action ο User) := by
  refine Action.abides_bind.2 (Action.abides_ensureLive.2 ⟨?_, trivial⟩)
  refine Action.abides_bind.2 (abides_needId.2 ?_)
  split
  · exact trivial
  · exact Action.abides_store.2 ⟨h.reads _ trivial, fun _ _ => trivial⟩

theorem obeys_updateUser {q : UpdateUserRequest} (h : Allows T (.updateUser q)) :
    Obeys T (updateUser q : Action ο User) := by
  unfold Obeys
  rw [abides_updateUser]
  split
  · exact trivial
  · rename_i patch hpatch
    split
    · exact trivial
    · refine ⟨⟨h.reads _ trivial, fun found hfound => ?_⟩, trivial⟩
      rcases found with e | existing
      · exact trivial
      · simp only
        split
        · exact trivial
        · rename_i changed hchanged
          exact ⟨⟨h.merges q patch existing changed rfl hpatch hfound hchanged,
            fun _ _ => trivial⟩, trivial⟩

theorem obeys_deleteUser (h : Allows T r) (q : DeleteUserRequest) :
    Obeys T (deleteUser q : Action ο Unit) := by
  unfold Obeys deleteUser
  rw [Action.abides_bind, Action.abides_ensureLive]
  refine ⟨?_, trivial⟩
  show Action.Abides T (needId q.id >>= _) () _
  rw [Action.abides_bind, abides_needId]
  split
  · exact trivial
  · refine ⟨h.reads _ trivial, fun done _ => ?_⟩
    cases done <;> exact trivial

theorem obeys_sendUsers (users : List User) (none : ServiceError) :
    Obeys T (do
      if users.isEmpty then throw none
      sendAll users) := by
  refine Action.abides_ite.2 ?_
  split
  · exact trivial
  · exact abides_sendAll (Q := fun _ _ => True) trivial trivial

theorem obeys_listUsers (h : Allows T r) (q : ListUsersRequest) : Obeys T (listUsers q) := by
  unfold Obeys listUsers
  rw [Action.abides_bind]
  -- the age only decides which filter is asked for
  have hage : Obeys T (createdBefore q.olderThan) := by
    unfold Obeys createdBefore
    split
    · exact trivial
    · rw [Action.abides_bind, Action.abides_clock]
      intro now
      simp only
      split <;> exact trivial
  refine hage.mono fun _ before _ => ?_
  cases before with
  | error e => exact trivial
  | ok before =>
    show Action.Abides T (Action.ensureLive >>= _) () _
    rw [Action.abides_bind, Action.abides_ensureLive]
    refine ⟨⟨h.reads _ trivial, fun found _ => ?_⟩, trivial⟩
    rcases found with e | users
    · exact trivial
    · exact obeys_sendUsers users _

theorem obeys_listUsersByRole (h : Allows T r) (q : UserRoleRequest) :
    Obeys T (listUsersByRole q) := by
  unfold Obeys listUsersByRole
  rw [Action.abides_bind, Action.abides_ensureLive]
  refine ⟨⟨h.reads _ trivial, fun found _ => ?_⟩, trivial⟩
  rcases found with e | users
  · exact trivial
  · exact obeys_sendUsers users _

theorem obeys_batchItem (h : Allows T r) (totals : BatchTotals) (u : User) :
    Obeys T (batchItem totals u : Action ο BatchTotals) := by
  unfold Obeys batchItem
  rw [Action.abides_bind, Action.abides_ensureLive]
  refine ⟨?_, trivial⟩
  show Action.Abides T (Action.outcome (create u) >>= _) () _
  rw [Action.abides_bind, Action.abides_outcome]
  refine (obeys_create h u).mono fun _ r _ => ?_
  simp only
  split <;> exact trivial

theorem obeys_recordLogin (h : Allows T r) (a : UserActivity) :
    Obeys T (recordLogin a : Action ο Unit) := by
  unfold Obeys
  rw [abides_recordLogin]
  intro at_ _
  rw [abides_touchLogin]
  refine ⟨h.reads _ trivial, fun found hfound => ?_⟩
  rcases found with e | u
  · exact trivial
  · exact ⟨h.logins a.userId u at_ hfound, fun _ _ => trivial⟩

theorem obeys_activityItem (h : Allows T r) (a : UserActivity) : Obeys T (activityItem () a) := by
  unfold Obeys activityItem
  rw [Action.abides_bind, Action.abides_ensureLive]
  refine ⟨?_, trivial⟩
  show Action.Abides T (recordActivity a >>= _) () _
  rw [Action.abides_bind]
  have hrecord : Obeys T (recordActivity a : Action UserActivityResponse _) := by
    unfold Obeys
    rw [abides_recordActivity]
    refine ⟨h.reads _ trivial, fun known _ => ?_⟩
    split
    · exact trivial
    · exact fun _ => trivial
    · split
      · refine (obeys_recordLogin h a).mono fun _ r _ => ?_
        cases r
        · exact trivial
        · exact fun _ => trivial
      · exact fun _ => trivial
  refine hrecord.mono fun _ r _ => ?_
  cases r
  · exact trivial
  · exact Action.abides_send.2 ⟨trivial, trivial⟩

/-- A user that arrives replaces the stored one or is added. -/
theorem obeys_syncUser {users : Inbound User} {a : Arrival User} {u : User}
    (h : Allows T (.syncUsers users)) (ha : a ∈ users.arrivals) (hu : a.content = .ok u) :
    Obeys T (syncUser u : Action ο (List String)) := by
  unfold Obeys
  rw [abides_syncUser]
  split
  · exact trivial
  · refine ⟨h.reads _ trivial, fun found hfound => ?_⟩
    split
    · rename_i existing
      exact ⟨h.replaces users a u existing rfl ha hu hfound, fun _ _ => trivial⟩
    · exact obeys_create h u
    · exact trivial

theorem obeys_syncItem {users : Inbound User} {a : Arrival User} {u : User}
    (h : Allows T (.syncUsers users)) (ha : a ∈ users.arrivals) (hu : a.content = .ok u) :
    Obeys T (syncItem () u) := by
  unfold Obeys syncItem
  rw [Action.abides_bind, Action.abides_ensureLive]
  refine ⟨?_, trivial⟩
  show Action.Abides T (Action.outcome (syncUser u) >>= _) () _
  rw [Action.abides_bind, Action.abides_outcome]
  refine (obeys_syncUser h ha hu).mono fun _ r _ => ?_
  simp only
  split
  · exact trivial
  · exact Action.abides_send.2 ⟨trivial, trivial⟩

end Actions

/-! ## §3. The requests. -/

variable {T : Terms Unit}

/-- A handler that does one thing abides by the terms if that thing does. -/
theorem Obeys.closing {r : Request} {a : Action r.method.Response r.method.Result} (h : Obeys T a) :
    (Course.going (.closing a.program) [] : Course r).Abides T (fun _ _ => True) () :=
  Program.Abides.mono (fun _ _ _ _ _ => trivial) h

/-- A handler that answers what arrives abides by the terms if each of its answers does. -/
theorem Awaits.of_obeys {r : Request} {kept : r.method.Progress}
    {arrivals : List (Arrival r.method.Item)}
    (hitem : ∀ a ∈ arrivals, ∀ x, a.content = .ok x → ∀ kept, Obeys T (r.handler.onItem kept x))
    (hend : ∀ kept, Obeys T (r.handler.onEnd kept)) :
    Awaits T (fun _ _ => True) arrivals kept () := by
  refine Awaits.of_forall (J := fun _ _ => True) ?_ ?_ trivial
  · intro a ha x hx kept _ _
    exact (hitem a ha x hx kept).mono fun _ _ _ _ _ => trivial
  · intro kept _ _
    exact (hend kept).mono fun _ _ _ _ _ => trivial

/-- A request abides by terms that allow what it writes. -/
theorem Request.abides_of_allows {r : Request} (h : Allows T r) :
    (Course.start r).Abides T (fun _ _ => True) () := by
  cases r with
  | addUser u => exact (obeys_addUser h u).closing (r := .addUser u)
  | getUser q => exact (obeys_getUser h q).closing (r := .getUser q)
  | updateUser q => exact (obeys_updateUser h).closing (r := .updateUser q)
  | deleteUser q => exact (obeys_deleteUser h q).closing (r := .deleteUser q)
  | listUsers q => exact (obeys_listUsers h q).closing (r := .listUsers q)
  | listUsersByRole q => exact (obeys_listUsersByRole h q).closing (r := .listUsersByRole q)
  | batchAddUsers users =>
    exact Awaits.of_obeys (r := .batchAddUsers users)
      (fun _ _ u _ totals => obeys_batchItem h totals u) fun _ _ => trivial
  | userActivityStream activities =>
    exact Awaits.of_obeys (r := .userActivityStream activities)
      (fun _ _ a _ _ => obeys_activityItem h a) fun _ => trivial
  | syncUsers users =>
    exact Awaits.of_obeys (r := .syncUsers users)
      (fun _ ha _ hu _ => obeys_syncItem h ha hu) fun _ => trivial

end UserDirectory.Service
