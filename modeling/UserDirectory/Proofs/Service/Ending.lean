import UserDirectory.Proofs.Call.Series
import UserDirectory.Proofs.Service.Pairing
/-!
# How the actions of the service end

One rule for each action that has the store for itself: how it ends, and which table it leaves; and for
a new user also what is read of the clock.

Main statements:
  * `endsAt_create`, `endsAt_addUser`: a new user is stored or refused;
  * `ends_syncUser`: a user is stored in place of another or as a new one;
  * `answersAt_syncResponse`, `ends_syncItem_ok`: and answered.
-/

namespace UserDirectory.Service

open UserDirectory.Call
open UserDirectory.Store (Table withDefaults)
open UserDirectory.Time (Instant)

variable {ο : Type} {hindered : Bool} {readings : List Instant} {t t' : Table} {sent : List ο} {u : User}

/-! ## §1. New users. -/

theorem endsAt_needId {id : UInt32} {r : Except ServiceError Unit} :
    (needId id : Action ο Unit).EndsAt hindered readings t sent t' r
      ↔ readings = [] ∧ sent = [] ∧ t' = t
          ∧ r = if id = 0 then .error (.invalidArgument idRequired) else .ok () := by
  unfold needId
  split <;> exact Iff.rfl

theorem ends_needId {id : UInt32} {r : Except ServiceError Unit} :
    (needId id : Action ο Unit).Ends hindered t sent t' r
      ↔ sent = [] ∧ t' = t
          ∧ r = if id = 0 then .error (.invalidArgument idRequired) else .ok () := by
  simp only [Action.ends_iff_exists_endsAt, endsAt_needId, exists_eq_left]

/-- The users are counted, and the first is looked at. -/
theorem endsAt_checkFirst_bind {α : Type} {f : Unit → Action ο α} {r : Except ServiceError α} :
    (checkFirst u >>= f).EndsAt hindered readings t sent t' r
      ↔ ∃ counting later, readings = counting :: later
          ∧ if t.size = 0 ∧ u.role ≠ .admin then
              later = [] ∧ sent = [] ∧ t' = t ∧ r = .error (.invalidArgument firstMustBeAdmin)
            else (f ()).EndsAt hindered later t sent t' r := by
  show (∃ counting later, readings = counting :: later ∧ Action.EndsAt hindered
    ((if t.size = 0 ∧ u.role ≠ .admin then throw _ else pure ()) >>= f) later t sent t' r) ↔ _
  split <;> exact Iff.rfl

/-- What storing a new user comes to at an instant, and the table after it. -/
def created (now : Instant) (u : User) (t : Table) : Except ServiceError Unit × Table :=
  if t.size = 0 ∧ u.role ≠ .admin then (.error (.invalidArgument firstMustBeAdmin), t)
  else if u.id = 0 then (.error (.invalidArgument idRequired), t)
  else if u.username = "" then (.error (.invalidArgument usernameRequired), t)
  else ((t.perform now (.add u)).1.mapError ServiceError.ofStore, (t.perform now (.add u)).2)

/-- A new user is refused and nothing changes, or is stored under a number that was not there and a name
that was free. -/
theorem created_cases (now : Instant) (u : User) (t : Table) :
    (∃ e, e ≠ .cancelled ∧ created now u t = (.error e, t))
    ∨ (t.get? u.id = none ∧ t.isFree u.id u.username = true
        ∧ created now u t = (.ok (), t.insert u.id (withDefaults u now))) := by
  unfold created
  split
  · exact .inl ⟨.invalidArgument _, by rintro ⟨⟩, rfl⟩
  · split
    · exact .inl ⟨.invalidArgument _, by rintro ⟨⟩, rfl⟩
    · split
      · exact .inl ⟨.invalidArgument _, by rintro ⟨⟩, rfl⟩
      · obtain ⟨hnone, hfree, hdone⟩ | ⟨e, hfailed⟩ := Table.perform_add_cases t now u
        · rw [hdone]
          exact .inr ⟨hnone, hfree, rfl⟩
        · rw [hfailed]
          exact .inl ⟨.ofStore e, ofStore_ne_cancelled e, rfl⟩

/-- To store a new user is never given up. -/
theorem created_ne_cancelled (now : Instant) (u : User) (t : Table) :
    (created now u t).1 ≠ .error .cancelled := by
  rcases created_cases now u t with ⟨e, hne, he⟩ | ⟨_, _, hok⟩
  · rw [he]
    exact fun h => hne (Except.error.inj h)
  · rw [hok]
    rintro ⟨⟩

/-- An orderly table stays orderly when a new user is stored or refused. -/
theorem tidy_created (ht : t.Tidy) (now : Instant) (u : User) : Table.Tidy (created now u t).2 := by
  rcases created_cases now u t with ⟨e, _, he⟩ | ⟨_, hfree, hok⟩
  · rw [he]
    exact ht
  · rw [hok]
    exact ht.insert hfree rfl rfl

/-- A new user is put to the store unless the first has to be an admin, or the number or the name is
missing. -/
def Creatable (u : User) (t : Table) : Prop :=
  ¬ (t.size = 0 ∧ u.role ≠ .admin) ∧ u.id ≠ 0 ∧ u.username ≠ ""

/-- What is read where a new user is dealt with: the clock when the users are counted, and again when the
user is put to the store. -/
def ReadFor (u : User) (t : Table) (now : Instant) (readings : List Instant) : Prop :=
  ∃ counting later, readings = counting :: later
    ∧ (Creatable u t → later = [now]) ∧ (¬ Creatable u t → later = [])

/-- A new user is stored at some instant or refused. -/
theorem endsAt_create {r : Except ServiceError Unit} :
    (create u : Action ο Unit).EndsAt hindered readings t sent t' r
      ↔ sent = [] ∧ ∃ now, ReadFor u t now readings ∧ t' = (created now u t).2
          ∧ r = (created now u t).1 := by
  have hrefused : ∀ {e : ServiceError} {later}, ¬ Creatable u t →
      (∀ now, created now u t = (.error e, t)) →
      (later = [] ∧ sent = [] ∧ t' = t ∧ r = .error e
        ↔ sent = [] ∧ ∃ now, ((Creatable u t → later = [now]) ∧ (¬ Creatable u t → later = []))
            ∧ t' = (created now u t).2 ∧ r = (created now u t).1) := by
    intro e later hnot he
    simp only [he]
    constructor
    · rintro ⟨rfl, rfl, rfl, rfl⟩
      exact ⟨rfl, .epoch, ⟨fun h => absurd h hnot, fun _ => rfl⟩, rfl, rfl⟩
    · rintro ⟨rfl, _, ⟨_, hlater⟩, rfl, rfl⟩
      exact ⟨hlater hnot, rfl, rfl, rfl⟩
  have hcounted : ∀ later, (if t.size = 0 ∧ u.role ≠ .admin then
        later = [] ∧ sent = [] ∧ t' = t ∧ r = .error (.invalidArgument firstMustBeAdmin)
      else (needId u.id >>= fun _ => if u.username = "" then
          throw (.invalidArgument usernameRequired) else Action.store (.add u)
        : Action ο Unit).EndsAt hindered later t sent t' r)
      ↔ sent = [] ∧ ∃ now, ((Creatable u t → later = [now]) ∧ (¬ Creatable u t → later = []))
          ∧ t' = (created now u t).2 ∧ r = (created now u t).1 := by
    intro later
    by_cases hfirst : t.size = 0 ∧ u.role ≠ .admin
    · rw [if_pos hfirst]
      exact hrefused (fun h => h.1 hfirst) fun now => if_pos hfirst
    · rw [if_neg hfirst, Action.endsAt_check fun _ _ _ _ => endsAt_needId]
      by_cases hid : u.id = 0
      · simp only [if_pos hid]
        exact hrefused (fun h => h.2.1 hid) fun now => (if_neg hfirst).trans (if_pos hid)
      · simp only [if_neg hid]
        refine Action.endsAt_ite.trans ?_
        by_cases hname : u.username = ""
        · rw [if_pos hname]
          exact hrefused (fun h => h.2.2 hname)
            fun now => (if_neg hfirst).trans ((if_neg hid).trans (if_pos hname))
        · rw [if_neg hname]
          have hcreatable : Creatable u t := ⟨hfirst, hid, hname⟩
          have hstored : ∀ now, created now u t
              = ((t.perform now (.add u)).1.mapError ServiceError.ofStore, (t.perform now (.add u)).2) :=
            fun now => (if_neg hfirst).trans ((if_neg hid).trans (if_neg hname))
          simp only [hstored]
          refine Action.endsAt_store.trans ⟨?_, ?_⟩
          · rintro ⟨now, rfl, rfl, rfl, rfl⟩
            exact ⟨rfl, now, ⟨fun _ => rfl, fun h => absurd hcreatable h⟩, rfl, rfl⟩
          · rintro ⟨rfl, now, ⟨hlater, _⟩, rfl, rfl⟩
            exact ⟨now, hlater hcreatable, rfl, rfl, rfl⟩
  refine endsAt_checkFirst_bind.trans ⟨?_, ?_⟩
  · rintro ⟨counting, later, rfl, h⟩
    obtain ⟨rfl, now, hlater, hrest⟩ := (hcounted later).1 h
    exact ⟨rfl, now, ⟨counting, later, rfl, hlater⟩, hrest⟩
  · rintro ⟨rfl, now, ⟨counting, later, rfl, hlater⟩, hrest⟩
    exact ⟨counting, later, rfl, (hcounted later).2 ⟨rfl, now, hlater, hrest⟩⟩

/-- Only a hindered call gives up before a new user is stored or refused. -/
theorem endsAt_addUser {r : Except ServiceError Unit} :
    (addUser u : Action ο Unit).EndsAt hindered readings t sent t' r
      ↔ (create u : Action ο Unit).EndsAt hindered readings t sent t' r
        ∨ (hindered = true ∧ readings = [] ∧ sent = [] ∧ t' = t ∧ r = .error .cancelled) := by
  unfold addUser
  rw [Action.endsAt_ensureLive_bind]
  -- what is noted of a success changes nothing
  refine or_congr_left ((Action.endsAt_map fun _ _ _ _ _ _ => Action.endsAt_note).trans ?_)
  have hmap : ∀ r : Except ServiceError Unit, r.map (fun x => x) = r := fun r => by cases r <;> rfl
  simp only [hmap, exists_eq_right']

/-- So it can always be read what it takes. -/
theorem exists_readFor (u : User) (t : Table) (now : Instant) : ∃ readings, ReadFor u t now readings := by
  by_cases h : Creatable u t
  · exact ⟨_, now, _, rfl, fun _ => rfl, fun hnot => absurd h hnot⟩
  · exact ⟨_, now, _, rfl, fun h' => absurd h' h, fun _ => rfl⟩

theorem ends_create {r : Except ServiceError Unit} :
    (create u : Action ο Unit).Ends hindered t sent t' r
      ↔ ∃ now, sent = [] ∧ t' = (created now u t).2 ∧ r = (created now u t).1 := by
  simp only [Action.ends_iff_exists_endsAt, endsAt_create]
  constructor
  · rintro ⟨_, rfl, now, _, h⟩
    exact ⟨now, rfl, h⟩
  · rintro ⟨now, rfl, h⟩
    obtain ⟨readings, hread⟩ := exists_readFor u t now
    exact ⟨readings, rfl, now, hread, h⟩

theorem ends_addUser {r : Except ServiceError Unit} :
    (addUser u : Action ο Unit).Ends hindered t sent t' r
      ↔ (create u : Action ο Unit).Ends hindered t sent t' r
        ∨ (hindered = true ∧ sent = [] ∧ t' = t ∧ r = .error .cancelled) := by
  simp only [Action.ends_iff_exists_endsAt, endsAt_addUser, exists_or]
  refine or_congr_right ⟨?_, ?_⟩
  · rintro ⟨_, hhindered, _, h⟩
    exact ⟨hhindered, h⟩
  · rintro ⟨hhindered, h⟩
    exact ⟨[], hhindered, rfl, h⟩

/-! ## §2. Users who are brought in line. -/

/-- What bringing a user in line comes to at an instant, and the table after it. -/
def broughtInLine (now : Instant) (u : User) (t : Table) : Except ServiceError (List String) × Table :=
  if u.id = 0 then (.error (.invalidArgument idRequired), t)
  else
    match t.get? u.id with
    | some existing =>
      ((t.perform now (.update (keepCreation u existing))).1.mapError ServiceError.ofStore |>.map
          fun _ => replacedFields,
        (t.perform now (.update (keepCreation u existing))).2)
    | none => ((created now u t).1.map fun _ => createdFields, (created now u t).2)

/-- A user is stored in place of the one with the same number, or as a new one. -/
theorem ends_syncUser {r : Except ServiceError (List String)} :
    (syncUser u : Action ο (List String)).Ends hindered t sent t' r
      ↔ ∃ now, sent = [] ∧ t' = (broughtInLine now u t).2 ∧ r = (broughtInLine now u t).1 := by
  unfold syncUser
  rw [Action.ends_check fun _ _ _ => ends_needId]
  unfold broughtInLine
  by_cases hid : u.id = 0
  · simp only [if_pos hid, exists_const]
  · simp only [if_neg hid]
    rw [Action.ends_check fun _ _ _ => Action.ends_get]
    unfold Table.fetch
    cases t.get? u.id with
    | some existing =>
      refine (Action.ends_map fun _ _ _ _ _ => Action.ends_pure).trans ⟨?_, ?_⟩
      · rintro ⟨_, hstore, rfl⟩
        obtain ⟨now, rfl, rfl, rfl⟩ := Action.ends_store.1 hstore
        exact ⟨now, rfl, rfl, rfl⟩
      · rintro ⟨now, rfl, rfl, rfl⟩
        exact ⟨_, Action.ends_store.2 ⟨now, rfl, rfl, rfl⟩, rfl⟩
    | none =>
      refine (Action.ends_map fun _ _ _ _ _ => Action.ends_pure).trans ⟨?_, ?_⟩
      · rintro ⟨_, hcreate, rfl⟩
        obtain ⟨now, rfl, rfl, rfl⟩ := ends_create.1 hcreate
        exact ⟨now, rfl, rfl, rfl⟩
      · rintro ⟨now, rfl, rfl, rfl⟩
        exact ⟨_, ends_create.2 ⟨now, rfl, rfl, rfl⟩, rfl⟩

/-- To bring a user in line is never given up. -/
theorem broughtInLine_ne_cancelled (now : Instant) (u : User) (t : Table) :
    (broughtInLine now u t).1 ≠ .error .cancelled := by
  unfold broughtInLine
  split
  · rintro ⟨⟩
  · split
    · rename_i existing _
      cases (t.perform now (.update (keepCreation u existing))).1 with
      | ok _ => rintro ⟨⟩
      | error e => exact fun h => ofStore_ne_cancelled e (Except.error.inj h)
    · have hcreated := created_ne_cancelled now u t
      cases hc : (created now u t).1 with
      | ok _ => rintro ⟨⟩
      | error e =>
        rintro ⟨⟩
        exact hcreated hc

/-- An orderly table stays orderly when a user is brought in line. -/
theorem tidy_broughtInLine (ht : t.Tidy) (now : Instant) (u : User) :
    Table.Tidy (broughtInLine now u t).2 := by
  unfold broughtInLine
  split
  · exact ht
  · split
    · exact ht.perform now _
    · exact tidy_created ht now u

/-- To each user who is brought in line an answer is made, from what has become of it. -/
theorem ends_syncResponse {r : Except ServiceError SyncUserResponse} {sent : List SyncUserResponse} :
    (syncResponse u).Ends hindered t sent t' r
      ↔ sent = [] ∧ ∃ now, r = .ok (syncAnswer u.id (broughtInLine now u t).1)
          ∧ t' = (broughtInLine now u t).2 := by
  have hanswered : ∀ readings, (syncResponse u).EndsAt hindered readings t sent t' r
      ↔ ∃ outcome, (syncUser u).EndsAt hindered readings t sent t' outcome
          ∧ r = .ok (syncAnswer u.id outcome) := by
    intro readings
    unfold syncResponse
    refine Action.endsAt_outcome_map fun outcome first sent₁ t₁ hsync readings t sent t' r => ?_
    -- as it is not given up, an answer is made whatever has become of the user
    have hne : outcome ≠ .error .cancelled := by
      obtain ⟨now, _, _, rfl⟩ := ends_syncUser.1 (Action.ends_iff_exists_endsAt.2 ⟨first, hsync⟩)
      exact broughtInLine_ne_cancelled now u _
    cases outcome with
    | ok fields => exact Iff.rfl
    | error e =>
      cases e with
      | cancelled => exact absurd rfl hne
      | _ => exact Iff.rfl
  rw [Action.ends_iff_exists_endsAt]
  simp only [hanswered]
  constructor
  · rintro ⟨readings, _, hsync, rfl⟩
    obtain ⟨now, rfl, rfl, rfl⟩ := ends_syncUser.1 (Action.ends_iff_exists_endsAt.2 ⟨readings, hsync⟩)
    exact ⟨rfl, now, rfl, rfl⟩
  · rintro ⟨rfl, now, rfl, rfl⟩
    have hsync : (syncUser u).Ends hindered t ([] : List SyncUserResponse) (broughtInLine now u t).2
        (broughtInLine now u t).1 := ends_syncUser.2 ⟨now, rfl, rfl, rfl⟩
    exact (Action.ends_iff_exists_endsAt.1 hsync).imp fun readings h => ⟨_, h, rfl⟩

theorem answersAt_syncResponse : AnswersAt syncResponse fun readings t u y t' =>
    (syncResponse u).EndsAt false readings t [] t' (.ok y) := by
  refine answersAt_of_quiet quiet_syncResponse fun u t t' e h => ?_
  obtain ⟨_, now, hok, _⟩ := ends_syncResponse.1 h
  cases hok

/-- A user is brought in line and then answered. -/
theorem ends_syncItem_ok {sent : List SyncUserResponse} :
    (syncItem () u).Ends hindered t sent t' (.ok ())
      ↔ ∃ now, sent = [syncAnswer u.id (broughtInLine now u t).1] ∧ t' = (broughtInLine now u t).2 := by
  have hitem : syncItem () u = answering (syncResponse u) :=
    congrFun (congrFun (congrArg Handler.onItem syncUsers_eq_ofAnswers) ()) u
  rw [hitem, Action.ends_iff_exists_endsAt]
  simp only [endsAt_answering_ok answersAt_syncResponse]
  constructor
  · rintro ⟨readings, y, rfl, h⟩
    obtain ⟨_, now, hy, rfl⟩ := ends_syncResponse.1 (Action.ends_iff_exists_endsAt.2 ⟨readings, h⟩)
    cases hy
    exact ⟨now, rfl, rfl⟩
  · rintro ⟨now, rfl, rfl⟩
    obtain ⟨readings, h⟩ := Action.ends_iff_exists_endsAt.1 (ends_syncResponse.2 ⟨rfl, now, rfl, rfl⟩)
    exact ⟨readings, _, rfl, h⟩

end UserDirectory.Service
