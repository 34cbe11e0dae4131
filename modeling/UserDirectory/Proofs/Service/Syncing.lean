import UserDirectory.Proofs.Service.Ending
import UserDirectory.Proofs.Store.Upkeep
import UserDirectory.Proofs.User.Merging
/-!
# Users who are brought in line

A user who is brought in line is stored as sent in place of the one with the same number, or added as by a
call that adds a user.  Whoever cannot be brought in line changes nothing, and nobody changes another.
What is told to have changed of a user who was stored are four fields, whatever has changed.

Main statements:
  * `upserted_broughtInLine`: what becomes of one user;
  * `Upserted.own`, `Upserted.table_eq_of_failed`, `Upserted.get?_of_ne`: what it leaves alone;
  * `syncing_upserts_one_by_one`: what becomes of all users of a call;
  * `unnamed_kept_iff`: what is not told to have changed is kept only if it is sent as it is stored.
-/

namespace UserDirectory.Service

open UserDirectory.Call
open UserDirectory.Store (StoreError Table withDefaults)
open UserDirectory.Time (Instant)

variable {t t' : Table} {u existing : User} {y : SyncUserResponse} {k : UInt32}

/-! ## §1. What becomes of one user. -/

/-- What becomes of a user who is brought in line: the answer, and the table after it. -/
inductive Upserted (t : Table) (u : User) : SyncUserResponse → Table → Prop
  /-- there is no number -/
  | numberless (hid : u.id = 0) : Upserted t u ⟨u.id, .failed, some idRequired, []⟩ t
  /-- the user is stored, and somebody else has the name -/
  | taken {existing other : User} {k : UInt32} (hid : u.id ≠ 0) (hstored : t.get? u.id = some existing)
      (hother : t.get? k = some other) (hk : k ≠ u.id) (hname : other.username = u.username) :
      Upserted t u ⟨u.id, .failed, some (StoreError.usernameTaken u.username).message, []⟩ t
  /-- the user is stored, and then as sent but for a date of creation that is missing -/
  | replaced {existing : User} (hid : u.id ≠ 0) (hstored : t.get? u.id = some existing)
      (hfree : ∀ k other, t.get? k = some other → k ≠ u.id → other.username ≠ u.username) :
      Upserted t u ⟨u.id, .success, none, replacedFields⟩ (t.insert u.id (keepCreation u existing))
  /-- the user is not stored, and is added as by a call -/
  | added {t' : Table} (hid : u.id ≠ 0) (hnone : t.get? u.id = none)
      (hadd : (addUser u : Call.Action Empty Unit).Ends false t [] t' (.ok ())) :
      Upserted t u ⟨u.id, .success, none, createdFields⟩ t'
  /-- or refused as by a call -/
  | refused {t' : Table} {e : ServiceError} (hid : u.id ≠ 0) (hnone : t.get? u.id = none)
      (hadd : (addUser u : Call.Action Empty Unit).Ends false t [] t' (.error e)) :
      Upserted t u ⟨u.id, .failed, some e.message, []⟩ t'

/-- In an orderly table a name is taken by another user. -/
theorem exists_of_isFree_eq_false (ht : t.Tidy) (htaken : t.isFree u.id u.username = false) :
    ∃ k other, t.get? k = some other ∧ k ≠ u.id ∧ other.username = u.username := by
  by_contra hnone
  refine Bool.false_ne_true (htaken.symm.trans (Table.isFree_iff.2 fun k other hother => ?_))
  by_cases hk : k = u.id
  · exact .inl ((ht.id_eq k other hother).trans hk)
  · exact .inr fun hname => hnone ⟨k, other, hother, hk, hname⟩

/-- What becomes of a user who is brought in line where the table is orderly. -/
theorem upserted_broughtInLine (ht : t.Tidy) (now : Instant) (u : User) :
    Upserted t u (syncAnswer u.id (broughtInLine now u t).1) (broughtInLine now u t).2 := by
  unfold broughtInLine
  by_cases hid : u.id = 0
  · rw [if_pos hid]
    exact .numberless hid
  · rw [if_neg hid]
    cases hget : t.get? u.id with
    | some existing =>
      simp only
      -- what is stored instead has the number and the name that are sent
      have hstored : t.get? (keepCreation u existing).id = some existing := hget
      cases hfree : t.isFree u.id u.username with
      | false =>
        obtain ⟨k, other, hother, hk, hname⟩ := exists_of_isFree_eq_false ht hfree
        rw [Table.perform_update_of_taken now hstored hfree]
        exact .taken hid hget hother hk hname
      | true =>
        rw [Table.perform_update_of_isFree hstored hfree]
        refine .replaced hid hget fun k other hother hk => ?_
        exact (Table.isFree_iff.1 hfree k other hother).resolve_left
          fun h => hk ((ht.id_eq k other hother).symm.trans h)
    | none =>
      -- what a call that adds the user would do at the same instant
      have hadd : ∀ r, r = (created now u t).1 →
          (addUser u : Call.Action Empty Unit).Ends false t [] (created now u t).2 r :=
        fun r hr => ends_addUser.2 (.inl (ends_create.2 ⟨now, rfl, rfl, hr⟩))
      cases hc : (created now u t).1 with
      | ok _ => exact .added hid hget (hadd _ hc.symm)
      | error e => exact .refused hid hget (hadd _ hc.symm)

/-! ## §2. What is left alone. -/

/-- Adding a user fails and changes nothing, or stores the user under a number that was not there. -/
theorem addUser_cases {hindered : Bool} {ο : Type} {sent : List ο} {r : Except ServiceError Unit}
    (h : (addUser u : Action ο Unit).Ends hindered t sent t' r) :
    (∃ e, r = .error e ∧ t' = t)
    ∨ (r = .ok () ∧ t.get? u.id = none ∧ ∃ now, t' = t.insert u.id (withDefaults u now)) := by
  rcases ends_addUser.1 h with h | ⟨_, _, rfl, rfl⟩
  · obtain ⟨now, _, rfl, rfl⟩ := ends_create.1 h
    rcases created_cases now u t with ⟨e, _, he⟩ | ⟨hnone, _, hok⟩
    · rw [he]
      exact .inl ⟨e, rfl, rfl⟩
    · rw [hok]
      exact .inr ⟨rfl, hnone, now, rfl⟩
  · exact .inl ⟨.cancelled, rfl, rfl⟩

namespace Upserted

/-- The answer is about the user who was sent. -/
theorem own (h : Upserted t u y t') : y.userId = u.id := by
  cases h <;> rfl

/-- Where a user is refused nothing changes. -/
theorem table_eq_of_failed (h : Upserted t u y t') (hfailed : y.status = .failed) : t' = t := by
  cases h with
  | numberless hid => rfl
  | taken hid hstored hother hk hname => rfl
  | replaced hid hstored hfree => cases hfailed
  | added hid hnone hadd => cases hfailed
  | refused hid hnone hadd =>
    rcases addUser_cases hadd with ⟨_, _, hsame⟩ | ⟨hok, _⟩
    · exact hsame
    · cases hok

/-- Nobody else changes. -/
theorem get?_of_ne (h : Upserted t u y t') (hk : k ≠ u.id) : t'.get? k = t.get? k := by
  cases h with
  | numberless hid => rfl
  | taken hid hstored hother hk hname => rfl
  | replaced hid hstored hfree => rw [SortedMap.get?_insert, if_neg hk]
  | added hid hnone hadd
  | refused hid hnone hadd =>
    rcases addUser_cases hadd with ⟨_, _, rfl⟩ | ⟨_, _, now, rfl⟩
    · rfl
    · rw [SortedMap.get?_insert, if_neg hk]

end Upserted

/-! ## §3. One user after another. -/

/-- What becomes of users one after another. -/
theorem oneByOne_upserted (ht : t.Tidy) {readings : List Instant} {users : List User}
    {responses : List SyncUserResponse}
    (h : OneByOneAt (fun readings t u y t' => (syncResponse u).EndsAt false readings t [] t' (.ok y))
      readings t users responses t') : OneByOne Upserted t users responses t' := by
  refine (oneByOne_iff_exists_oneByOneAt.2 ⟨readings, h⟩).imp (I := Table.Tidy) ?_ ht
  rintro t u y t' ht h
  obtain ⟨_, now, hy, rfl⟩ := ends_syncResponse.1 (Action.ends_iff_exists_endsAt.2 h)
  cases hy
  exact ⟨upserted_broughtInLine ht now u, tidy_broughtInLine ht now u⟩

/-- What becomes of the users of a call whose store nobody else writes to: each is dealt with as the table
is that the ones before have left.  A calm call comes to that, and one that is executed and has not failed
has done it. -/
theorem syncing_upserts_one_by_one (ht : t.Reachable) (users : List User) (inbound : Inbound User)
    (husers : inbound.arrivals.map (·.content) = users.map .ok) (hends : inbound.silent = false)
    (capacity : Nat) (enough : Option Nat) (attentive : Bool) :
    (∀ served : Bool, (Alone.start syncUsers served inbound
        (.ofCapacity capacity ⟨enough, attentive, [], none⟩) t).Inevitably fun s =>
          s.life.stance.outbound.reader.ending = some .closed
            ∧ ∃ responses, s.life.stance.outbound.reader.received = responses.map .ok
                ∧ OneByOne Upserted t users responses s.table)
    ∧ (∀ (manner : Manner) (cancelAt : Option Nat) (context : Context) (tie : Tie) (cancelled : Bool)
        (w w' : World) (e : Exchange User SyncUserResponse Unit Unit)
        (state : CallState SyncUserResponse), manner ≠ .bare → w.Holds t →
        Exchange.Goes (.start manner cancelAt (.start syncUsers inbound
          { CallState.start context tie (.ofCapacity capacity ⟨enough, attentive, [], none⟩) w.clock with
            cancelled }), w) (e, w') →
        e.phase = .ended (.ok ()) state →
        ∃ responses t', w'.Holds t' ∧ OneByOne Upserted t users responses t'
          ∧ state.outbound.reader.messages <+: responses
          ∧ (state.outbound.reader.ending = some .closed →
              state.outbound.reader.received = responses.map .ok))
    ∧ ∀ t u y t', Upserted t u y t' →
        y.userId = u.id ∧ (y.status = .failed → t' = t)
          ∧ ∀ k, k ≠ u.id → SortedMap.get? t' k = SortedMap.get? t k := by
  rw [syncUsers_eq_ofAnswers]
  refine ⟨fun served => ?_, ?_, fun t u y t' h => ⟨h.own, h.table_eq_of_failed, fun k => h.get?_of_ne⟩⟩
  · refine (Alone.inevitably_oneByOneAt meets_syncing answersAt_syncResponse husers hends served capacity
      enough attentive).mono ?_
    rintro s ⟨hclosed, readings, responses, hread, hone⟩
    exact ⟨hclosed, responses, hread, oneByOne_upserted ht.tidy hone⟩
  · intro manner cancelAt context tie cancelled w w' e state hchained hw hgoes hphase
    obtain ⟨shown, hgoesBy⟩ := Exchange.goes_iff_exists_goesBy.1 hgoes
    obtain ⟨readings, responses, t', _, hw', hone, hread⟩ := Alone.oneByOneAt_of_goesBy
      answersAt_syncResponse husers hw hchained hgoesBy hphase
    exact ⟨responses, t', hw', oneByOne_upserted ht.tidy hone, hread⟩

/-- An admin, somebody without a number, the admin under another name, somebody under that name, and then
under the name that has become free. -/
def renamingUsers : List User :=
  [⟨1, "ada", .admin, none, none, none, none, [], .empty, [], none, none⟩,
    ⟨0, "bob", .member, none, none, none, none, [], .empty, [], none, none⟩,
    ⟨1, "eve", .admin, none, none, none, none, [], .empty, [], none, none⟩,
    ⟨2, "eve", .member, none, none, none, none, [], .empty, [], none, none⟩,
    ⟨2, "ada", .member, none, none, none, none, [], .empty, [], none, none⟩]

/-- They arrive one after another. -/
def renamingInbound : Inbound User := .ofArrivals (renamingUsers.map fun u => ⟨.ok u, 0⟩) false

/-- A call by which they are brought in line. -/
def renamingCall : Exchange User SyncUserResponse Unit Unit :=
  .start .served none (.start syncUsers renamingInbound
    { CallState.start ((Request.syncUsers renamingInbound).context none) .nothing
        (.ofCapacity 8 ⟨none, true, [], none⟩) 0 with cancelled := false })

/-- Two of them are refused, and three are stored. -/
theorem syncing_upserts_one_by_one_renaming :
    (∃ e w state responses t', Exchange.Goes (renamingCall, .start .epoch none .empty) (e, w)
      ∧ e.phase = .ended (.ok ()) state ∧ w.Holds t'
      ∧ state.outbound.reader.received = responses.map .ok
      ∧ state.outbound.reader.messages.map (fun y => (y.userId, y.status))
          = [(1, .success), (0, .failed), (1, .success), (2, .failed), (2, .success)]
      ∧ OneByOne Upserted .empty renamingUsers responses t')
    ∧ (Alone.start syncUsers true renamingInbound (.ofCapacity 8 ⟨none, true, [], none⟩)
        .empty).Inevitably fun s => s.life.stance.outbound.reader.ending = some .closed
          ∧ ∃ responses, s.life.stance.outbound.reader.received = responses.map .ok
              ∧ OneByOne Upserted .empty renamingUsers responses s.table := by
  have hall := syncing_upserts_one_by_one .empty renamingUsers renamingInbound rfl rfl 8 none true
  refine ⟨?_, hall.1 true⟩
  have hwork := Exchange.Goes.refl.move (.work renamingCall (.start .epoch none .empty))
  have hgoes := hwork.move (.read (renamingCall.work (.start .epoch none .empty)).1
    (renamingCall.work (.start .epoch none .empty)).2)
  obtain ⟨responses, t', hw', hone, _, hread⟩ := hall.2.1 .served none
    ((Request.syncUsers renamingInbound).context none) .nothing false (.start .epoch none .empty) _ _ _
    nofun ⟨rfl, nofun⟩ hgoes rfl
  exact ⟨_, _, _, responses, t', hgoes, rfl, hw', hread (by decide +kernel), by decide +kernel, hone⟩

/-! ## §4. What is told to have changed. -/

/-- A stored user who is brought in line has afterwards what was sent, whatever is told to have changed.
So a field that is not named is kept only if it is sent as it is stored, and the date of creation also if
none is sent; the number is kept, and nobody else changes. -/
theorem unnamed_kept_iff {hindered : Bool} {answers : List SyncUserResponse} (ht : t.Reachable)
    (hstored : t.get? u.id = some existing)
    (h : (syncItem () u).Ends hindered t answers t' (.ok ())) (hy : y ∈ answers)
    (hsuccess : y.status = .success) :
    y.userId = u.id ∧ y.updatedFields = replacedFields
      ∧ (∃ after, t'.get? u.id = some after ∧ after.id = existing.id
          ∧ (∀ f : UserField, f.path ∉ y.updatedFields → (f.Same after existing ↔ f.Same u existing))
          ∧ (after.createDate = existing.createDate
              ↔ u.createDate = none ∨ u.createDate = existing.createDate))
      ∧ ∀ k, k ≠ u.id → t'.get? k = t.get? k := by
  obtain ⟨now, rfl, ht'⟩ := ends_syncItem_ok.1 h
  have hup := upserted_broughtInLine ht.tidy now u
  rw [← List.mem_singleton.1 hy, ← ht'] at hup
  refine ⟨hup.own, ?_⟩
  have hframe := fun k (hk : k ≠ u.id) => hup.get?_of_ne hk
  cases hup with
  | numberless hid => cases hsuccess
  | taken hid hstored' hother hk hname => cases hsuccess
  | refused hid hnone hadd => cases hsuccess
  | added hid hnone hadd => cases hnone.symm.trans hstored
  | replaced hid hstored' hfree =>
    cases Option.some.inj (hstored.symm.trans hstored')
    refine ⟨rfl, ⟨keepCreation u existing, ?_, ?_, fun f _ => ?_, ?_⟩, hframe⟩
    · rw [SortedMap.get?_insert, if_pos rfl]
    · exact (ht.tidy.id_eq u.id existing hstored).symm
    · cases f <;> exact Iff.rfl
    · unfold keepCreation
      cases u.createDate with
      | none => simp
      | some date => simp

/-- An admin with all kinds of things to tell. -/
def knownAdmin : User :=
  ⟨1, "ada", .admin, some .active, some "ada@roster", some "42", none, ["x"], .empty, [], some .epoch, none⟩

/-- A store with nobody else. -/
def knownAdminTable : Table := (Table.perform .empty .epoch (.add knownAdmin)).2

/-- The admin with the same mail address, another role and no telephone number. -/
def changedAdmin : User := { knownAdmin with role := .member, phone := none, createDate := none }

/-- The mail address is kept, and the telephone number is not. -/
theorem unnamed_kept_iff_address :
    ∃ t', (syncItem () changedAdmin).Ends false knownAdminTable [⟨1, .success, none, replacedFields⟩] t'
        (.ok ())
      ∧ ∃ after, t'.get? 1 = some after ∧ after.id = 1 ∧ after.createDate = knownAdmin.createDate
          ∧ UserField.email.Same after knownAdmin ∧ ¬ UserField.phone.Same after knownAdmin := by
  have hstored : knownAdminTable.get? changedAdmin.id = some knownAdmin := rfl
  have hsync : (syncItem () changedAdmin).Ends false knownAdminTable
      [⟨1, .success, none, replacedFields⟩] (broughtInLine .epoch changedAdmin knownAdminTable).2
      (.ok ()) := ends_syncItem_ok.2 ⟨.epoch, by decide +kernel, rfl⟩
  obtain ⟨_, _, ⟨after, hafter, hid, hfields, hdate⟩, _⟩ :=
    unnamed_kept_iff (.perform .empty .epoch (.add knownAdmin)) hstored hsync
      (List.mem_singleton_self _) rfl
  refine ⟨_, hsync, after, hafter, hid, hdate.2 (.inl rfl), (hfields .email (by decide)).2 rfl, ?_⟩
  exact fun h => absurd ((hfields .phone (by decide)).1 h) nofun

/-- The admin without a mail address, a telephone number or a tag. -/
def strippedAdmin : User :=
  { knownAdmin with email := none, phone := none, tags := [], createDate := none }

/-- None of the three is told to have changed, and all are gone. -/
theorem unnamed_erased :
    knownAdminTable.Reachable ∧ knownAdminTable.get? 1 = some knownAdmin
      ∧ ∃ t' after, (syncItem () strippedAdmin).Ends false knownAdminTable
          [⟨1, .success, none, ["role", "username", "profile", "status"]⟩] t' (.ok ())
        ∧ t'.get? 1 = some after ∧ ¬ UserField.email.Same after knownAdmin
        ∧ ¬ UserField.phone.Same after knownAdmin ∧ ¬ UserField.tags.Same after knownAdmin := by
  refine ⟨.perform .empty .epoch (.add knownAdmin), rfl, _, _,
    ends_syncItem_ok.2 ⟨.epoch, by decide +kernel, rfl⟩, rfl, ?_⟩
  decide +kernel

end UserDirectory.Service
