import UserDirectory.Proofs.Call.Persevering
import UserDirectory.Proofs.Concurrency.Upkeep
import UserDirectory.Proofs.Service.Listing
import UserDirectory.Proofs.Time.Ago
/-!
# Listings by age

Who asks for the users that were created some time ago gets those who were created before the instant
that long ago, to the nanosecond.  There is such an instant unless it would lie before the earliest one,
and then the request is refused, however long the time is.

Main statements:
  * `ends_listBefore`: which users a listing without pages is about;
  * `ListsAt.cases`: what a listing by age comes to at a reading of the clock;
  * `listings_by_age_exact`: it is exact, it comes to its end, and together with the listing of those who
    were created later it is about all users.
-/

namespace UserDirectory.Service

open UserDirectory.Call
open UserDirectory.Store (ListFilter Table)
open UserDirectory.Time (Duration Instant)

variable {t t' : Table} {sent : List User} {r : Except ServiceError Unit}

/-! ## §1. Listings without pages. -/

/-- Without a page to start from or to fill, a listing is about all that satisfy its conditions. -/
theorem select_of_unpaged {f : ListFilter} (hsize : f.pageSize = 0) (htoken : f.pageToken = none) :
    t.select f = .ok (t.values.filter f.accepts) := by
  have hstart : f.startingAfter none = f := by
    obtain ⟨createdSince, createdBefore, status, pageSize, pageToken⟩ := f
    cases htoken
    rfl
  have hselect := Store.Table.select_startingAfter t f none
  rw [hstart, Store.firstPage_of_unlimited hsize] at hselect
  exact hselect

/-- Users are sent one after another, and all of them. -/
theorem ends_sendAll {users : List User} :
    (sendAll users).Ends false t sent t' r ↔ sent = users ∧ t' = t ∧ r = .ok () := by
  induction users generalizing sent with
  | nil => exact Action.ends_pure
  | cons u more ih =>
    show (Action.ensureLive >>= fun _ => Action.send u >>= fun _ => sendAll more).Ends _ _ _ _ _ ↔ _
    rw [Action.ends_ensureLive_bind, Action.ends_bind]
    simp only [Action.ends_send, Bool.false_eq_true, false_and, or_false]
    constructor
    · rintro (⟨_, _, _, _, ⟨rfl, rfl, _⟩, hmore, rfl⟩ | ⟨_, ⟨_, _, herror⟩, _⟩)
      · obtain ⟨rfl, rfl, rfl⟩ := ih.1 hmore
        exact ⟨rfl, rfl, rfl⟩
      · cases herror
    · rintro ⟨rfl, rfl, rfl⟩
      exact .inl ⟨[u], _, (), more, ⟨rfl, rfl, trivial⟩, ih.2 ⟨rfl, rfl, rfl⟩, rfl⟩

/-- What a listing comes to that is about some users: that there is nobody is a failure. -/
def listingResult : List User → Except ServiceError Unit
  | [] => .error (.notFound "no users found")
  | _ :: _ => .ok ()

/-- A listing without pages sends every user that satisfies its conditions. -/
theorem ends_listBefore {q : ListUsersRequest} (hsize : q.pageSize = 0) (htoken : q.pageToken = none)
    {before : Option Instant} {users : List User}
    (husers : t.values.filter (filterOf q before).accepts = users) :
    (listBefore q before).Ends false t sent t' r
      ↔ sent = users ∧ t' = t ∧ r = listingResult users := by
  have hselect : t.select (filterOf q before) = .ok users := by
    rw [select_of_unpaged (f := filterOf q before) hsize htoken, husers]
  have hstore : ∀ sent t' r, (Action.store (.list (filterOf q before)) : Action User (List User)).Ends
      false t sent t' r ↔ sent = [] ∧ t' = t ∧ r = .ok users := by
    intro sent t' r
    refine Action.ends_store.trans ?_
    show (∃ _ : Instant, sent = [] ∧ t' = t ∧ r = (t.select (filterOf q before)).mapError _) ↔ _
    rw [exists_const, hselect]
    exact Iff.rfl
  unfold listBefore
  rw [Action.ends_ensureLive_bind]
  simp only [Bool.false_eq_true, false_and, or_false]
  refine (Action.ends_check hstore).trans ?_
  cases users with
  | nil => exact Iff.rfl
  | cons u more => exact ends_sendAll

/-! ## §2. Listings by age. -/

/-- The request for the users that were created longer ago than this. -/
def olderThan (age : Duration) : ListUsersRequest := ⟨none, some age, none, 0, none⟩

/-- The request for the users that were created at an instant or later. -/
def createdFrom (since : Instant) : ListUsersRequest := ⟨some since, none, none, 0, none⟩

/-- The users that were created before an instant. -/
def older (t : Table) (cut : Instant) : List User := t.values.filter fun u => u.createDate.any (· < cut)

/-- The users that were created at an instant or later. -/
def younger (t : Table) (cut : Instant) : List User := t.values.filter fun u => u.createDate.any (cut ≤ ·)

/-- A program that nothing hinders, and that has a table for itself, always sends these responses, leaves
the table as it is, and comes to this value. -/
def ComesTo (p : Program User (Except ServiceError Unit)) (t : Table) (sent : List User)
    (r : Except ServiceError Unit) : Prop :=
  ∀ sent' t' r', p.Ends false t sent' t' r' ↔ sent' = sent ∧ t' = t ∧ r' = r

/-- At a reading of the clock, which it begins with, a listing by age sends these users and comes to this. -/
def ListsAt (now : Instant) (age : Duration) (t : Table) (sent : List User)
    (r : Except ServiceError Unit) : Prop :=
  ∃ next, (listUsers (olderThan age)).program = .clock next ∧ ComesTo (next now) t sent r

variable {now cut : Instant} {age age' : Duration} {sent' : List User} {r' : Except ServiceError Unit}

theorem ComesTo.unique {p : Program User (Except ServiceError Unit)} (h : ComesTo p t sent r)
    (h' : ComesTo p t sent' r') : sent = sent' ∧ r = r' := by
  obtain ⟨hsent, _, hr⟩ := (h' sent t r).1 ((h sent t r).2 ⟨rfl, rfl, rfl⟩)
  exact ⟨hsent, hr⟩

theorem ListsAt.unique (h : ListsAt now age t sent r) (h' : ListsAt now age t sent' r') :
    sent = sent' ∧ r = r' := by
  obtain ⟨next, hnext, hcomes⟩ := h
  obtain ⟨next', hnext', hcomes'⟩ := h'
  cases hnext.symm.trans hnext'
  exact hcomes.unique hcomes'

theorem mem_older_iff {u : User} :
    u ∈ older t cut ↔ u ∈ t.values ∧ ∃ created, u.createDate = some created ∧ created < cut := by
  simp [older, Option.any_eq_true]

/-- What is done once the clock has been read. -/
theorem listsAt_iff : ListsAt now age t sent r ↔
    ComesTo ((now.minus? age).elim (throw outOfRange) (fun cut => pure (some cut))
      >>= listBefore (olderThan age)).program t sent r := by
  have hprogram : (listUsers (olderThan age)).program = .clock fun now =>
      ((now.minus? age).elim (throw outOfRange) (fun cut => pure (some cut))
        >>= listBefore (olderThan age)).program := by
    rw [listUsers_eq]
    show (createdBefore (some age) >>= listBefore (olderThan age)).program = _
    rw [createdBefore_some]
    rfl
  unfold ListsAt
  rw [hprogram]
  constructor
  · rintro ⟨next, hnext, h⟩
    cases hnext
    exact h
  · exact fun h => ⟨_, rfl, h⟩

/-- Where the instant would lie before the earliest one, the listing is refused. -/
theorem listsAt_of_lt_earliest (h : now.totalNanos - age.totalNanos < Instant.earliestNanos) :
    ListsAt now age t [] (.error outOfRange) := by
  rw [listsAt_iff, Instant.minus?_eq_none_iff.2 h]
  exact fun _ _ _ => Iff.rfl

/-- Else it is about the users that were created before. -/
theorem listsAt_of_ago (h : now.Ago age cut) :
    ListsAt now age t (older t cut) (listingResult (older t cut)) := by
  rw [listsAt_iff, Instant.minus?_eq_some_iff.2 h]
  have haccepts : (filterOf (olderThan age) (some cut)).accepts = fun u => u.createDate.any (· < cut) := by
    funext u
    simp [ListFilter.accepts, ListFilter.asks, filterOf, olderThan]
  exact fun _ _ _ => ends_listBefore (q := olderThan age) rfl rfl (by rw [haccepts]; rfl)

/-- One of the two is so. -/
theorem exists_listsAt (now : Instant) (age : Duration) (t : Table) :
    ∃ sent r, ListsAt now age t sent r := by
  cases hago : now.minus? age with
  | none => exact ⟨_, _, listsAt_of_lt_earliest (Instant.minus?_eq_none_iff.1 hago)⟩
  | some cut => exact ⟨_, _, listsAt_of_ago (Instant.minus?_eq_some_iff.1 hago)⟩

theorem ListsAt.cases (h : ListsAt now age t sent r) :
    (now.totalNanos - age.totalNanos < Instant.earliestNanos ∧ sent = [] ∧ r = .error outOfRange)
    ∨ ∃ cut, now.Ago age cut ∧ sent = older t cut ∧ r = listingResult sent := by
  cases hago : now.minus? age with
  | none =>
    have hbefore := Instant.minus?_eq_none_iff.1 hago
    obtain ⟨rfl, rfl⟩ := h.unique (listsAt_of_lt_earliest hbefore)
    exact .inl ⟨hbefore, rfl, rfl⟩
  | some cut =>
    have hcut := Instant.minus?_eq_some_iff.1 hago
    obtain ⟨rfl, rfl⟩ := h.unique (listsAt_of_ago hcut)
    exact .inr ⟨cut, hcut, rfl, rfl⟩

/-- A listing by age that has ended has read the clock at some time, and changed nothing. -/
theorem listsAt_of_ends (h : (listUsers (olderThan age)).Ends false t sent t' r) :
    t' = t ∧ ∃ now, ListsAt now age t sent r := by
  obtain ⟨_, _, next, hnext, _⟩ := exists_listsAt .epoch age t
  unfold Action.Ends at h
  rw [hnext] at h
  obtain ⟨now, hends⟩ := h
  obtain ⟨_, _, next', hnext', hcomes⟩ := exists_listsAt now age t
  cases hnext.symm.trans hnext'
  obtain ⟨rfl, rfl, rfl⟩ := (hcomes _ _ _).1 hends
  exact ⟨rfl, now, next, hnext, hcomes⟩

/-- Who asks for the users that were created at an instant or later gets those. -/
theorem comesTo_createdFrom (t : Table) (cut : Instant) :
    ComesTo (listUsers (createdFrom cut)).program t (younger t cut) (listingResult (younger t cut)) := by
  have haccepts : (filterOf (createdFrom cut) none).accepts = fun u => u.createDate.any (cut ≤ ·) := by
    funext u
    simp [ListFilter.accepts, ListFilter.asks, filterOf, createdFrom]
  exact fun _ _ _ => ends_listBefore (q := createdFrom cut) rfl rfl (by rw [haccepts]; rfl)

/-! ## §3. They come to their end. -/

theorem perseveres_sendAll (users : List User) : Action.Perseveres (sendAll users) := by
  induction users with
  | nil => exact trivial
  | cons u more ih =>
    exact Action.perseveres_bind Action.perseveres_ensureLive fun _ =>
      Action.perseveres_bind (Action.perseveres_send u) fun _ => ih

theorem perseveres_createdBefore (age : Option Duration) : Action.Perseveres (createdBefore age) := by
  cases age with
  | none => exact trivial
  | some d =>
    rw [createdBefore_some]
    refine Action.perseveres_bind (fun _ => trivial) fun now => ?_
    cases now.minus? d <;> exact trivial

/-- No listing cancels its own call. -/
theorem perseveres_listUsers (q : ListUsersRequest) : Action.Perseveres (listUsers q) := by
  rw [listUsers_eq]
  refine Action.perseveres_bind (perseveres_createdBefore _) fun before => ?_
  refine Action.perseveres_bind Action.perseveres_ensureLive fun _ => ?_
  refine Action.perseveres_bind (Action.perseveres_store _) fun users => ?_
  cases users with
  | nil => exact trivial
  | cons u more => exact perseveres_sendAll _

/-! ## §4. They are exact. -/

/-- Every user of a table was created at some time. -/
def Dated (t : Table) : Prop := ∀ u ∈ t.values, u.createDate.isSome

theorem dated_of_reachable {s : System} (h : s.Reachable) : Dated s.table := by
  intro u hu
  obtain ⟨k, hk⟩ := Table.mem_values_iff.1 hu
  exact h.wellKept.created k u hk

/-- Nobody was created both before an instant and not before it, and of users who were created at some
time everybody was the one or the other. -/
theorem older_append_younger_perm (ht : Dated t) (cut : Instant) :
    (older t cut ++ younger t cut).Perm t.values := by
  have hyounger : younger t cut = t.values.filter fun u => !u.createDate.any (· < cut) := by
    refine List.filter_congr fun u hu => ?_
    obtain ⟨created, hcreated⟩ := Option.isSome_iff_exists.1 (ht u hu)
    rw [hcreated, Option.any_some, Option.any_some, ← decide_not]
    exact decide_eq_decide.2 Iff.rfl
  rw [hyounger]
  exact List.filter_append_perm _ _

theorem older_disjoint_younger (t : Table) (cut : Instant) :
    (older t cut).Disjoint (younger t cut) := by
  intro u hbefore hsince
  obtain ⟨_, created, hcreated, hlt⟩ := mem_older_iff.1 hbefore
  have hle := (List.mem_filter.1 hsince).2
  rw [hcreated, Option.any_some, decide_eq_true_iff] at hle
  exact hle hlt

/-- The earlier an instant is, the fewer users were created before it. -/
theorem older_sublist {cut' : Instant} (hle : cut' ≤ cut) (t : Table) :
    (older t cut').Sublist (older t cut) := by
  refine List.monotone_filter_right _ fun u hu => ?_
  rw [Option.any_eq_true] at hu ⊢
  obtain ⟨created, hcreated, hlt⟩ := hu
  exact ⟨created, hcreated, decide_eq_true (Instant.lt_of_lt_of_le (of_decide_eq_true hlt) hle)⟩

/-- Only to be refused is a bad argument. -/
theorem ListsAt.refused_iff (h : ListsAt now age t sent r) :
    (∃ message, r = .error (.invalidArgument message))
      ↔ now.totalNanos - age.totalNanos < Instant.earliestNanos := by
  obtain ⟨hbefore, _, rfl⟩ | ⟨cut, hago, _, rfl⟩ := h.cases
  · exact iff_of_true ⟨_, rfl⟩ hbefore
  · refine iff_of_false ?_ ?_
    · rintro ⟨message, hmessage⟩
      cases sent <;> cases hmessage
    · rw [← hago.nanos_eq]
      exact Int.not_lt.2 cut.earliestNanos_le

/-- Outside leap seconds, the users are those that are longer ago by nanoseconds. -/
theorem ListsAt.mem_iff {u : User} {created : Instant} (h : ListsAt now age t sent r)
    (hu : u ∈ t.values) (hcreated : u.createDate = some created) (hnow : now.nanos < 1_000_000_000)
    (hdate : created.nanos < 1_000_000_000) :
    u ∈ sent ↔ created.totalNanos < now.totalNanos - age.totalNanos := by
  obtain ⟨hbefore, rfl, _⟩ | ⟨cut, hago, rfl, _⟩ := h.cases
  · -- nobody was created before the earliest instant
    have hearliest := created.earliestNanos_le
    exact iff_of_false List.not_mem_nil (by omega)
  · rw [mem_older_iff, hcreated, ← hago.lt_iff hnow hdate]
    constructor
    · rintro ⟨_, _, hdated, hlt⟩
      cases hdated
      exact hlt
    · exact fun hlt => ⟨hu, created, rfl, hlt⟩

/-- What is longer ago is about fewer users. -/
theorem ListsAt.sublist (h : ListsAt now age t sent r) (h' : ListsAt now age' t sent' r')
    (hle : age.totalNanos ≤ age'.totalNanos) : sent'.Sublist sent := by
  obtain ⟨_, rfl, _⟩ | ⟨cut', hago', rfl, _⟩ := h'.cases
  · exact List.nil_sublist _
  · obtain ⟨hbefore, _, _⟩ | ⟨cut, hago, rfl, _⟩ := h.cases
    · -- what is less long ago is not before the earliest instant either
      have hearliest := cut'.earliestNanos_le
      rw [hago'.nanos_eq] at hearliest
      omega
    · exact older_sublist (hago.le hago' hle) t

/-- Listings of a table by age are exact, at every reading of the clock and for every age. -/
structure ExactByAge (t : Table) : Prop where
  dated : Dated t
  /-- the clock is read once, and then one thing is sent and comes of it; nothing changes -/
  answered : ∀ now age, ∃ sent r, ListsAt now age t sent r
  /-- a call with which nothing interferes comes to such an end -/
  ends : ∀ age served (inbound : Inbound Empty) capacity enough attentive,
    (Alone.start (.ofAction (listUsers (olderThan age))) served inbound
      (.ofCapacity capacity ⟨enough, attentive, [], none⟩) t).Inevitably fun s =>
        ∃ now r unsent, s.life.spot = .ended r unsent ∧ s.table = t
          ∧ ListsAt now age t s.life.stance.accepted r
  /-- it is refused only where its instant would be before the earliest one -/
  refused_iff : ∀ now age sent r, ListsAt now age t sent r →
    ((∃ message, r = .error (.invalidArgument message))
      ↔ now.totalNanos - age.totalNanos < Instant.earliestNanos)
  /-- and then nobody is sent, and it is told why -/
  refused : ∀ now age sent r, ListsAt now age t sent r →
    now.totalNanos - age.totalNanos < Instant.earliestNanos → sent = [] ∧ r = .error outOfRange
  /-- else it is about the users that were created before its instant -/
  selected : ∀ now age sent r, ListsAt now age t sent r →
    Instant.earliestNanos ≤ now.totalNanos - age.totalNanos →
    ∃ cut, now.Ago age cut ∧ sent = older t cut ∧ r = listingResult sent
  /-- to the nanosecond; a leap second has the nanoseconds of the next one, and is left out of this -/
  to_the_nanosecond : ∀ now age sent r u created, ListsAt now age t sent r → u ∈ t.values →
    u.createDate = some created → now.nanos < 1_000_000_000 → created.nanos < 1_000_000_000 →
    (u ∈ sent ↔ created.totalNanos < now.totalNanos - age.totalNanos)
  /-- all others, and nobody else, are among those that were created at its instant or later -/
  split : ∀ now age cut before r, now.Ago age cut → ListsAt now age t before r →
    ∃ since r', ComesTo (listUsers (createdFrom cut)).program t since r'
      ∧ (before ++ since).Perm t.values ∧ before.Disjoint since
  /-- what is longer ago is about fewer users -/
  antitone : ∀ now age age' sent sent' r r', ListsAt now age t sent r → ListsAt now age' t sent' r' →
    age.totalNanos ≤ age'.totalNanos → sent'.Sublist sent

/-- Listings by age are exact in every store that calls can bring about. -/
theorem listings_by_age_exact {s : System} (hs : s.Reachable) : ExactByAge s.table where
  dated := dated_of_reachable hs
  answered now age := exists_listsAt now age s.table
  ends age served inbound capacity enough attentive := by
    refine (Alone.inevitably_ended_ofAction (perseveres_listUsers (olderThan age)) served inbound capacity
      enough attentive s.table).mono ?_
    rintro a ⟨r, unsent, hspot, hends⟩
    obtain ⟨htable, now, hlists⟩ := listsAt_of_ends hends
    exact ⟨now, r, unsent, hspot, htable, hlists⟩
  refused_iff _ _ _ _ h := h.refused_iff
  refused now age sent r h hbefore := h.unique (listsAt_of_lt_earliest hbefore)
  selected now age sent r h hafter := by
    obtain ⟨hbefore, _, _⟩ | hselected := h.cases
    · exact absurd hafter (Int.not_le.2 hbefore)
    · exact hselected
  to_the_nanosecond _ _ _ _ _ _ h hu hcreated hnow hdate := h.mem_iff hu hcreated hnow hdate
  split now age cut before r hago h := by
    obtain ⟨rfl, _⟩ := h.unique (listsAt_of_ago hago)
    exact ⟨_, _, comesTo_createdFrom s.table cut, older_append_younger_perm (dated_of_reachable hs) cut,
      older_disjoint_younger _ cut⟩
  antitone _ _ _ _ _ _ _ h h' hle := h.sublist h' hle

/-- A hundred seconds after the start of 1970. -/
def cutoff : Instant :=
  { Instant.epoch with
    seconds := 100, earliest_le := by decide, le_latest := by decide, leap_at_59 := by decide }

/-- The longest time there is. -/
def longestAge : Duration := ⟨UInt64.size - 1, 999_999_999, by decide, by decide⟩

/-- An admin who was created at the last nanosecond before the cutoff. -/
def earlyAdmin : User :=
  { System.firstAdmin with createDate := some ⟨99, 999_999_999, by decide, by decide, by decide, by decide⟩ }

/-- A member who was created at the cutoff. -/
def lateMember : User := { Store.reader 2 "eve" with createDate := some cutoff }

/-- A store to which both have been added. -/
theorem exists_reachable_members :
    ∃ s : System, s.Reachable ∧ (older s.table cutoff).map (·.id) = [1]
      ∧ (younger s.table cutoff).map (·.id) = [2] := by
  have begun : System.Runs .empty []
      ⟨.empty, [.start (.addUser earlyAdmin), .start (.addUser lateMember)]⟩ :=
    (System.Runs.refl.step (.begin (.addUser earlyAdmin))).step (.begin (.addUser lateMember))
  have live := begun.step (.go (i := 0) rfl (.close _ (.live _ true)))
  have count := live.step (.go (i := 0) rfl (.close _ (.store .count _ .epoch)))
  have first := count.step (.go (i := 0) rfl (.close _ (.store (.add earlyAdmin) _ .epoch)))
  have live' := first.step (.go (i := 1) rfl (.close _ (.live _ true)))
  have count' := live'.step (.go (i := 1) rfl (.close _ (.store .count _ .epoch)))
  have second := count'.step (.go (i := 1) rfl (.close _ (.store (.add lateMember) _ .epoch)))
  exact ⟨_, ⟨_, second⟩, by decide +kernel, by decide +kernel⟩

/-- A hundred seconds after the cutoff, the one was created more than a hundred seconds ago, by a
nanosecond, and the other one was not; and there is no instant as long ago as the longest time there is. -/
theorem listings_by_age_exact_members :
    ∃ (s : System) (now : Instant) (age : Duration), s.Reachable ∧ now.Ago age cutoff
      ∧ (∃ before since r r', ListsAt now age s.table before r
          ∧ ComesTo (listUsers (createdFrom cutoff)).program s.table since r'
          ∧ before.map (·.id) = [1] ∧ since.map (·.id) = [2] ∧ (before ++ since).Perm s.table.values)
      ∧ ∃ sent message, ListsAt now longestAge s.table sent (.error (.invalidArgument message)) := by
  obtain ⟨s, hs, holder, hyounger⟩ := exists_reachable_members
  have hexact := listings_by_age_exact hs
  let now : Instant := ⟨200, 0, by decide, by decide, by decide, by decide⟩
  let age : Duration := ⟨100, 0, by decide, by decide⟩
  have hago : now.Ago age cutoff := ⟨by decide, by decide⟩
  have hlists := listsAt_of_ago (t := s.table) hago
  obtain ⟨since, r', hrest, hperm, _⟩ := hexact.split now age cutoff _ _ hago hlists
  have hsince := (hrest.unique (comesTo_createdFrom s.table cutoff)).1
  rw [← hsince] at hyounger
  obtain ⟨sent, r, hlongest⟩ := hexact.answered now longestAge
  obtain ⟨message, rfl⟩ := (hexact.refused_iff _ _ _ _ hlongest).2 (by decide +kernel)
  exact ⟨s, now, age, hs, hago, ⟨_, since, _, r', hlists, hrest, holder, hyounger, hperm⟩, sent, message,
    hlongest⟩

end UserDirectory.Service
