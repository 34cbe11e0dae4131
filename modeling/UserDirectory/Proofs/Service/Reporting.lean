import Mathlib.Data.List.Forall2
import UserDirectory.Proofs.Service.Ending
import UserDirectory.Proofs.Store.Upkeep
/-!
# What reported activities leave behind

Of what is reported only a login is kept, and it is kept by a user who is stored being stored again with
another time.  As a user never stands in the way of their own name, that always succeeds; so of all users
nothing changes but when they have last logged in, and what counts is which report has come last.

Main statements:
  * `answersAt_recordActivity`: how one report is answered, what it leaves and what is read for it;
  * `get?_reported`: what it leaves of each user;
  * `oneByOneAt_reported_iff`: what some reports leave one after another;
  * `reports_change_logins_only`: what a call leaves by which they arrive.
-/

namespace UserDirectory.Service

open UserDirectory.Call
open UserDirectory.Store (StoreError Table)
open UserDirectory.Text
open UserDirectory.Time (Instant)

variable {ο : Type} {hindered : Bool} {readings : List Instant} {t t' : Table} {sent : List ο}
  {a : UserActivity} {u : User} {k : UInt32}

/-! ## §1. One report. -/

/-- The answer to a report, where a table is stored. -/
def acknowledgement (t : Table) (a : UserActivity) (now : Instant) : UserActivityResponse :=
  if t.contains a.userId then recorded a now else unknownUser a.userId now

/-- What is read of the clock where a login is stored: when it happened unless that is told, when the user
is looked up, and when the user is stored again. -/
def LoginRead (a : UserActivity) (login : Instant) (readings : List Instant) : Prop :=
  ∃ looking storing, readings = match a.timestamp with
    | some _ => [looking, storing]
    | none => [login, looking, storing]

/-- What is read of the clock for a report: when it is asked whether the user is stored, what is read where a
login is stored, and when the report is answered. -/
inductive ReadAs (t : Table) (a : UserActivity) (login now : Instant) : List Instant → Prop
  | passing (asking : Instant) (h : t.get? a.userId = none ∨ a.kind ≠ .login) :
      ReadAs t a login now [asking, now]
  | login (asking : Instant) {u : User} {storing : List Instant} (hget : t.get? a.userId = some u)
      (hkind : a.kind = .login) (h : LoginRead a login storing) :
      ReadAs t a login now (asking :: (storing ++ [now]))

/-- What a report comes to: it is answered, and a login is stored. -/
def ReportedAt (readings : List Instant) (t : Table) (a : UserActivity) (y : UserActivityResponse)
    (t' : Table) : Prop :=
  ∃ login, ReadAs t a login y.processedAt readings ∧ y = acknowledgement t a y.processedAt
    ∧ t' = reported login a t

/-- A stored user is stored again with another login. -/
theorem endsAt_touchLogin {at_ : Instant} {r : Except ServiceError (Except StoreError Unit)}
    (hget : t.get? k = some u) :
    (touchLogin k at_ : Action ο _).EndsAt hindered readings t sent t' r
      ↔ ∃ looking storing, readings = [looking, storing] ∧ sent = []
          ∧ t' = (t.perform storing (.update { u with lastLogin := some at_ })).2
          ∧ r = .ok (t.perform storing (.update { u with lastLogin := some at_ })).1 := by
  have hfound : ∀ now, t.perform now (.get k) = (.ok u, t) :=
    fun now => congrArg (·, t) (Table.fetch_eq_ok_iff.2 hget)
  unfold touchLogin
  rw [Action.endsAt_attempt_bind]
  simp only [hfound]
  constructor
  · rintro ⟨looking, _, rfl, storing, _, rfl, rfl, h⟩
    exact ⟨looking, storing, rfl, h⟩
  · rintro ⟨looking, storing, rfl, h⟩
    exact ⟨looking, _, rfl, storing, [], rfl, rfl, h⟩

/-- A login of a stored user is stored; that it could not be is only noted. -/
theorem endsAt_storeLogin {at_ : Instant} {r : Except ServiceError Unit} (hget : t.get? a.userId = some u) :
    (do
      match ← touchLogin a.userId at_ with
      | .ok () => pure ()
      | .error e => Action.note (.loginFailed a.userId e) : Action ο Unit).EndsAt hindered readings t sent t' r
      ↔ ∃ looking storing, readings = [looking, storing] ∧ sent = []
          ∧ t' = (t.perform storing (.update { u with lastLogin := some at_ })).2 ∧ r = .ok () := by
  refine (Action.endsAt_map (g := fun _ => ()) fun done _ t sent t' r => ?_).trans ?_
  · cases done <;> exact Iff.rfl
  · simp only [endsAt_touchLogin hget]
    constructor
    · rintro ⟨_, ⟨looking, storing, rfl, rfl, rfl, rfl⟩, rfl⟩
      exact ⟨looking, storing, rfl, rfl, rfl, rfl⟩
    · rintro ⟨looking, storing, rfl, rfl, rfl, rfl⟩
      exact ⟨_, ⟨looking, storing, rfl, rfl, rfl, rfl⟩, rfl⟩

/-- A login happened as reported, or when the clock is read. -/
theorem endsAt_recordLogin {r : Except ServiceError Unit} (hget : t.get? a.userId = some u)
    (hkind : a.kind = .login) :
    (recordLogin a : Action ο Unit).EndsAt hindered readings t sent t' r
      ↔ ∃ login, LoginRead a login readings ∧ sent = [] ∧ t' = reported login a t ∧ r = .ok () := by
  unfold recordLogin reported loginInstant LoginRead
  simp only [hget, if_pos hkind]
  cases a.timestamp with
  | some at_ =>
    refine (endsAt_storeLogin hget).trans ⟨?_, ?_⟩
    · rintro ⟨looking, storing, rfl, rfl, rfl, rfl⟩
      exact ⟨looking, ⟨looking, storing, rfl⟩, rfl, rfl, rfl⟩
    · rintro ⟨_, ⟨looking, storing, rfl⟩, rfl, rfl, rfl⟩
      exact ⟨looking, storing, rfl, rfl, rfl, rfl⟩
  | none =>
    refine Action.endsAt_clock_bind.trans ⟨?_, ?_⟩
    · rintro ⟨login, _, rfl, h⟩
      obtain ⟨looking, storing, rfl, rfl, rfl, rfl⟩ := (endsAt_storeLogin hget).1 h
      exact ⟨login, ⟨looking, storing, rfl⟩, rfl, rfl, rfl⟩
    · rintro ⟨login, ⟨looking, storing, rfl⟩, rfl, rfl, rfl⟩
      exact ⟨login, _, rfl, (endsAt_storeLogin hget).2 ⟨looking, storing, rfl, rfl, rfl, rfl⟩⟩

theorem reported_of_none {at_ : Instant} (hget : t.get? a.userId = none) : reported at_ a t = t := by
  unfold reported
  rw [hget]

theorem reported_of_ne_login {at_ : Instant} (hkind : a.kind ≠ .login) : reported at_ a t = t := by
  unfold reported
  cases t.get? a.userId with
  | none => rfl
  | some u => exact if_neg hkind

/-- It is asked first whether the user is stored. -/
theorem endsAt_contains_bind {α : Type} {f : Bool → Action ο α} {r : Except ServiceError α} :
    (Action.store (.contains k) >>= f).EndsAt hindered readings t sent t' r
      ↔ ∃ asking later, readings = asking :: later
          ∧ (f (SortedMap.contains t k)).EndsAt hindered later t sent t' r := Iff.rfl

/-- The time of an answer is read last. -/
theorem endsAt_clock_pure {α : Type} {f : Instant → α} {r : Except ServiceError α} :
    (Action.clock >>= fun now => pure (f now) : Action ο α).EndsAt hindered readings t sent t' r
      ↔ ∃ now, readings = [now] ∧ sent = [] ∧ t' = t ∧ r = .ok (f now) := by
  rw [Action.endsAt_clock_bind]
  constructor
  · rintro ⟨now, _, rfl, rfl, h⟩
    exact ⟨now, rfl, h⟩
  · rintro ⟨now, rfl, h⟩
    exact ⟨now, [], rfl, rfl, h⟩

theorem acknowledgement_of_some (hget : t.get? a.userId = some u) (now : Instant) :
    acknowledgement t a now = recorded a now := by
  unfold acknowledgement SortedMap.contains
  rw [hget]
  rfl

theorem acknowledgement_of_none (hget : t.get? a.userId = none) (now : Instant) :
    acknowledgement t a now = unknownUser a.userId now := by
  unfold acknowledgement SortedMap.contains
  rw [hget]
  rfl

/-- An answer tells when it has been made. -/
theorem processedAt_acknowledgement (t : Table) (a : UserActivity) (now : Instant) :
    (acknowledgement t a now).processedAt = now := by
  unfold acknowledgement
  split <;> rfl

section

variable {r : Except ServiceError UserActivityResponse}

/-- A report that is no login of a stored user is answered, and nothing else is done. -/
theorem endsAt_recordActivity_of_passing (h : t.get? a.userId = none ∨ a.kind ≠ .login) :
    (recordActivity a : Action ο _).EndsAt hindered readings t sent t' r
      ↔ ∃ asking now, readings = [asking, now] ∧ sent = [] ∧ t' = t ∧ r = .ok (acknowledgement t a now) := by
  have hanswered : (∃ asking later, readings = asking :: later
        ∧ (Action.clock >>= fun now => pure (acknowledgement t a now) : Action ο _).EndsAt hindered later t
            sent t' r)
      ↔ ∃ asking now, readings = [asking, now] ∧ sent = [] ∧ t' = t
          ∧ r = .ok (acknowledgement t a now) := by
    simp only [endsAt_clock_pure]
    constructor
    · rintro ⟨asking, _, rfl, now, rfl, h⟩
      exact ⟨asking, now, rfl, h⟩
    · rintro ⟨asking, now, rfl, h⟩
      exact ⟨asking, [now], rfl, now, rfl, h⟩
  refine Iff.trans (endsAt_contains_bind.trans ?_) hanswered
  refine exists_congr fun asking => exists_congr fun later => and_congr_right fun _ => ?_
  cases hget : t.get? a.userId with
  | none =>
    have hunknown : SortedMap.contains t a.userId = false := congrArg Option.isSome hget
    simp only [acknowledgement_of_none hget]
    rw [hunknown]
    exact Iff.rfl
  | some u =>
    have hknown : SortedMap.contains t a.userId = true := congrArg Option.isSome hget
    have hkind : a.kind ≠ .login := h.resolve_left fun hnone => by cases hget.symm.trans hnone
    simp only [acknowledgement_of_some hget]
    rw [hknown, if_pos rfl, if_neg hkind]

/-- A login of a stored user is stored, and then the report is answered. -/
theorem endsAt_recordActivity_of_login (hget : t.get? a.userId = some u) (hkind : a.kind = .login) :
    (recordActivity a : Action ο _).EndsAt hindered readings t sent t' r
      ↔ ∃ asking login storing now, readings = asking :: (storing ++ [now]) ∧ LoginRead a login storing
          ∧ sent = [] ∧ t' = reported login a t ∧ r = .ok (acknowledgement t a now) := by
  have hknown : SortedMap.contains t a.userId = true := congrArg Option.isSome hget
  have hstored : ∀ later, (recordLogin a >>= fun _ => Action.clock >>= fun now => pure (recorded a now)
        : Action ο _).EndsAt hindered later t sent t' r
      ↔ ∃ login storing now, later = storing ++ [now] ∧ LoginRead a login storing ∧ sent = []
          ∧ t' = reported login a t ∧ r = .ok (recorded a now) := by
    intro later
    refine Action.endsAt_bind.trans ⟨?_, ?_⟩
    · rintro (⟨_, _, _, _, _, _, hlogin, hrest, rfl, rfl⟩ | ⟨_, hlogin, _⟩)
      · obtain ⟨login, hread, rfl, rfl, _⟩ := (endsAt_recordLogin hget hkind).1 hlogin
        obtain ⟨now, rfl, rfl, rfl, rfl⟩ := endsAt_clock_pure.1 hrest
        exact ⟨login, _, now, rfl, hread, rfl, rfl, rfl⟩
      · obtain ⟨_, _, _, _, h⟩ := (endsAt_recordLogin hget hkind).1 hlogin
        cases h
    · rintro ⟨login, storing, now, rfl, hread, rfl, rfl, rfl⟩
      exact .inl ⟨storing, [], _, (), [now], [],
        (endsAt_recordLogin hget hkind).2 ⟨login, hread, rfl, rfl, rfl⟩,
        endsAt_clock_pure.2 ⟨now, rfl, rfl, rfl, rfl⟩, rfl, rfl⟩
  simp only [acknowledgement_of_some hget]
  refine endsAt_contains_bind.trans ?_
  rw [hknown]
  -- whoever is asked for is stored, and the report is one of a login
  constructor
  · rintro ⟨asking, later, rfl, hrest⟩
    rw [if_pos rfl, if_pos hkind] at hrest
    obtain ⟨login, storing, now, rfl, h⟩ := (hstored later).1 hrest
    exact ⟨asking, login, storing, now, rfl, h⟩
  · rintro ⟨asking, login, storing, now, rfl, h⟩
    refine ⟨asking, _, rfl, ?_⟩
    rw [if_pos rfl, if_pos hkind]
    exact (hstored _).2 ⟨login, storing, now, rfl, h⟩

end

/-- To each report an answer is made, from who is stored, and only a login changes the table. -/
theorem answersAt_recordActivity : AnswersAt recordActivity ReportedAt := by
  intro hindered a readings t sent t' r
  by_cases hpassing : t.get? a.userId = none ∨ a.kind ≠ .login
  · -- the table is left as it is
    have hsame : ∀ login, reported login a t = t := fun login =>
      hpassing.elim (fun hget => reported_of_none hget) fun hkind => reported_of_ne_login hkind
    refine (endsAt_recordActivity_of_passing hpassing).trans ⟨?_, ?_⟩
    · rintro ⟨asking, now, rfl, rfl, rfl, rfl⟩
      refine ⟨rfl, _, rfl, now, ?_, ?_, (hsame now).symm⟩
      · rw [processedAt_acknowledgement]
        exact .passing asking hpassing
      · rw [processedAt_acknowledgement]
    · rintro ⟨rfl, y, rfl, login, hread, hy, rfl⟩
      cases hread with
      | passing asking _ => exact ⟨asking, _, rfl, rfl, hsame login, congrArg _ hy⟩
      | login asking hget hkind _ =>
        rcases hpassing with hnone | hother
        · cases hnone.symm.trans hget
        · exact absurd hkind hother
  · obtain ⟨hstored, hkind⟩ := not_or.1 hpassing
    obtain ⟨u, hget⟩ := Option.ne_none_iff_exists'.1 hstored
    refine (endsAt_recordActivity_of_login hget (not_not.1 hkind)).trans ⟨?_, ?_⟩
    · rintro ⟨asking, login, storing, now, rfl, hread, rfl, rfl, rfl⟩
      refine ⟨rfl, _, rfl, login, ?_, ?_, rfl⟩
      · rw [processedAt_acknowledgement]
        exact .login asking hget (not_not.1 hkind) hread
      · rw [processedAt_acknowledgement]
    · rintro ⟨rfl, y, rfl, login, hread, hy, rfl⟩
      cases hread with
      | passing asking h => exact absurd h hpassing
      | login asking _ _ h => exact ⟨asking, login, _, _, rfl, h, rfl, rfl, congrArg _ hy⟩

/-! ## §2. Logins. -/

/-- A user after a login, if there has been one. -/
def withLogin (at_ : Option Instant) (u : User) : User := { u with lastLogin := at_.or u.lastLogin }

/-- The login of a user that a report tells of: as reported, or when the clock was read. -/
def loginOf (k : UInt32) (report : UserActivity × Instant) : Option Instant :=
  if report.1.userId = k ∧ report.1.kind = .login then some (report.1.timestamp.getD report.2) else none

/-- The login of a user that the last report of one tells of, whichever is the latest. -/
def lastReported (k : UInt32) (reports : List (UserActivity × Instant)) : Option Instant :=
  (reports.filterMap (loginOf k)).getLast?

/-- Of two logins one after another the second stays. -/
theorem withLogin_withLogin (first second : Option Instant) (u : User) :
    withLogin second (withLogin first u) = withLogin (second.or first) u := by
  unfold withLogin
  rw [Option.or_assoc]

theorem lastReported_cons (report : UserActivity × Instant) (reports : List (UserActivity × Instant)) :
    lastReported k (report :: reports) = (lastReported k reports).or (loginOf k report) := by
  unfold lastReported
  rw [List.filterMap_cons]
  cases loginOf k report with
  | none => exact (Option.or_none).symm
  | some at_ =>
    rw [List.getLast?_cons]
    cases (reports.filterMap (loginOf k)).getLast? <;> rfl

/-- Nobody else has the name of a stored user. -/
theorem isFree_own (ht : t.Tidy) (hget : t.get? k = some u) : t.isFree u.id u.username = true := by
  refine Table.isFree_iff.2 fun l v hl => ?_
  by_cases hname : v.username = u.username
  · left
    rw [ht.id_eq l v hl, ht.id_eq k u hget]
    exact ht.name_inj l k v u hl hget hname
  · exact .inr hname

/-- In an orderly table a report changes the login of the user it is about, and nothing else. -/
theorem get?_reported (ht : t.Tidy) (at_ : Instant) (a : UserActivity) (k : UInt32) :
    SortedMap.get? (reported at_ a t) k = (t.get? k).map (withLogin (loginOf k (a, at_))) := by
  have hsame : (t.get? k).map (withLogin none) = t.get? k := by
    cases t.get? k <;> rfl
  unfold loginOf
  by_cases hkind : a.kind = .login
  · cases hget : t.get? a.userId with
    | none =>
      rw [reported_of_none hget]
      by_cases hk : a.userId = k
      · rw [← hk, hget]
        rfl
      · rw [if_neg fun h => hk h.1, hsame]
    | some u =>
      have hid := ht.id_eq _ _ hget
      have hfree : t.isFree u.id u.username = true := isFree_own ht hget
      have hstored : t.get? { u with lastLogin := some (a.timestamp.getD at_) }.id = some u := by
        rw [hid]
        exact hget
      unfold reported
      rw [hget]
      simp only [if_pos hkind]
      rw [Table.perform_update_of_isFree hstored hfree, SortedMap.get?_insert, hid]
      by_cases hk : k = a.userId
      · rw [if_pos hk, if_pos ⟨hk.symm, hkind⟩, hk, hget, ← hid]
        rfl
      · rw [if_neg hk, if_neg fun h => hk h.1.symm, hsame]
  · rw [reported_of_ne_login hkind, if_neg fun h => hkind h.2, hsame]

theorem tidy_reported (ht : t.Tidy) (at_ : Instant) (a : UserActivity) : Table.Tidy (reported at_ a t) := by
  unfold reported
  split
  · split
    · exact ht.perform at_ _
    · exact ht
  · exact ht

/-! ## §3. One report after another. -/

/-- A report is acknowledged exactly if the user is stored, and the answer tells either. -/
structure Acknowledged (t : Table) (a : UserActivity) (y : UserActivityResponse) : Prop where
  own : y.userId = a.userId
  acknowledged_iff : y.acknowledged = true ↔ ∃ u, t.get? a.userId = some u
  message_of_stored : ∀ u, t.get? a.userId = some u →
    y.message = "Activity " ++ a.kind.name ++ " recorded for user " ++ Decimal.text a.userId.toNat
  message_of_unknown : t.get? a.userId = none →
    y.message = "User " ++ Decimal.text a.userId.toNat ++ " not found"

theorem acknowledged_iff_eq {y : UserActivityResponse} :
    Acknowledged t a y ↔ ∃ now, y = acknowledgement t a now := by
  unfold acknowledgement SortedMap.contains
  obtain ⟨id, acknowledged, message, now⟩ := y
  cases hget : t.get? a.userId with
  | none =>
    constructor
    · rintro ⟨rfl, hack, _, hmessage⟩
      cases hmessage hget
      cases acknowledged with
      | false => exact ⟨now, rfl⟩
      | true =>
        obtain ⟨u, hu⟩ := hack.1 rfl
        cases hget.symm.trans hu
    · rintro ⟨_, ⟨⟩⟩
      refine ⟨rfl, ⟨nofun, ?_⟩, ?_, fun _ => rfl⟩
      · rintro ⟨u, hu⟩
        cases hget.symm.trans hu
      · intro u hu
        cases hget.symm.trans hu
  | some u =>
    constructor
    · rintro ⟨rfl, hack, hmessage, _⟩
      cases hmessage u hget
      cases hack.2 ⟨u, hget⟩
      exact ⟨now, rfl⟩
    · rintro ⟨_, ⟨⟩⟩
      refine ⟨rfl, ⟨fun _ => ⟨u, hget⟩, fun _ => rfl⟩, fun _ _ => rfl, ?_⟩
      intro hnone
      cases hget.symm.trans hnone

/-- What is read of the clock for some reports, each with the reading by which a login has happened that does
not tell when, and each answered at the last of its own. -/
inductive ReadFrom (t : Table) :
    List (UserActivity × Instant) → List UserActivityResponse → List Instant → Prop
  | nil : ReadFrom t [] [] []
  | cons {a : UserActivity} {login : Instant} {reports : List (UserActivity × Instant)}
      {y : UserActivityResponse} {responses : List UserActivityResponse} {first later : List Instant}
      (h : ReadAs t a login y.processedAt first) (more : ReadFrom t reports responses later) :
      ReadFrom t ((a, login) :: reports) (y :: responses) (first ++ later)

/-- What some reports come to: each is acknowledged or not, and of every user only the login changes, to
the one that the last report of one tells of. -/
structure Recorded (t : Table) (activities : List UserActivity) (readings : List Instant)
    (responses : List UserActivityResponse) (t' : Table) : Prop where
  answered : List.Forall₂ (Acknowledged t) activities responses
  stored : ∃ reports : List (UserActivity × Instant), reports.map Prod.fst = activities
    ∧ ReadFrom t reports responses readings
    ∧ ∀ k, t'.get? k = (t.get? k).map fun u =>
        { u with lastLogin := (lastReported k reports).or u.lastLogin }

/-- To be acknowledged does not depend on what was reported before. -/
theorem acknowledged_reported_iff (ht : t.Tidy) (at_ : Instant) (a b : UserActivity)
    (y : UserActivityResponse) : Acknowledged (reported at_ a t) b y ↔ Acknowledged t b y := by
  have hsame : ∀ now, acknowledgement (reported at_ a t) b now = acknowledgement t b now := by
    intro now
    unfold acknowledgement SortedMap.contains
    rw [get?_reported ht, Option.isSome_map]
  simp only [acknowledged_iff_eq, hsame]

/-- Nor does what is read for it. -/
theorem readAs_reported_iff (ht : t.Tidy) {at_ login now : Instant} {b : UserActivity} :
    ReadAs (reported at_ a t) b login now readings ↔ ReadAs t b login now readings := by
  have hsome : (∃ u, SortedMap.get? (reported at_ a t) b.userId = some u) ↔ ∃ u, t.get? b.userId = some u := by
    rw [get?_reported ht]
    cases t.get? b.userId <;> simp
  have hnone : SortedMap.get? (reported at_ a t) b.userId = none ↔ t.get? b.userId = none := by
    rw [get?_reported ht, Option.map_eq_none_iff]
  constructor
  · rintro (⟨asking, h⟩ | ⟨asking, hget, hkind, h⟩)
    · exact .passing asking (h.imp_left hnone.1)
    · obtain ⟨u, hu⟩ := hsome.1 ⟨_, hget⟩
      exact .login asking hu hkind h
  · rintro (⟨asking, h⟩ | ⟨asking, hget, hkind, h⟩)
    · exact .passing asking (h.imp_left hnone.2)
    · obtain ⟨u, hu⟩ := hsome.2 ⟨_, hget⟩
      exact .login asking hu hkind h

theorem readFrom_reported_iff (ht : t.Tidy) {at_ : Instant} {reports : List (UserActivity × Instant)}
    {responses : List UserActivityResponse} :
    ReadFrom (reported at_ a t) reports responses readings ↔ ReadFrom t reports responses readings := by
  constructor
  · intro h
    induction h with
    | nil => exact .nil
    | cons h _ ih => exact .cons ((readAs_reported_iff ht).1 h) ih
  · intro h
    induction h with
    | nil => exact .nil
    | cons h _ ih => exact .cons ((readAs_reported_iff ht).2 h) ih

/-- Reports one after another are acknowledged by who is stored at the beginning. -/
theorem oneByOneAt_reported_iff (ht : t.Tidy) {activities : List UserActivity}
    {responses : List UserActivityResponse} :
    OneByOneAt ReportedAt readings t activities responses t'
      ↔ Recorded t activities readings responses t' := by
  induction activities generalizing t readings responses with
  | nil =>
    constructor
    · rintro ⟨⟩
      exact ⟨.nil, [], rfl, .nil, fun k => Option.map_id'.symm⟩
    · rintro ⟨⟨⟩, _, hreports, hread, hget⟩
      cases List.map_eq_nil_iff.1 hreports
      cases hread
      cases SortedMap.ext_get? fun k => (hget k).trans Option.map_id'
      exact .nil t'
  | cons a activities ih =>
    -- the last report of a login counts, whatever the ones before it have left
    have hrest : ∀ login reports, (∀ k, t'.get? k = (SortedMap.get? (reported login a t) k).map
          (withLogin (lastReported k reports)))
        ↔ ∀ k, t'.get? k = (t.get? k).map (withLogin (lastReported k ((a, login) :: reports))) := by
      intro login reports
      refine forall_congr' fun k => ?_
      rw [get?_reported ht, Option.map_map, lastReported_cons]
      simp only [Function.comp_def, withLogin_withLogin]
    constructor
    · rintro (_ | ⟨⟨login, hread, hanswer, rfl⟩, hmore⟩)
      obtain ⟨hanswered, reports, hreports, hlater, hget⟩ := (ih (tidy_reported ht login a)).1 hmore
      refine ⟨.cons (acknowledged_iff_eq.2 ⟨_, hanswer⟩) ?_, (a, login) :: reports, ?_, ?_, ?_⟩
      · exact hanswered.imp fun b y => (acknowledged_reported_iff ht login a b y).1
      · exact congrArg (a :: ·) hreports
      · exact .cons hread ((readFrom_reported_iff ht).1 hlater)
      · exact (hrest login reports).1 hget
    · rintro ⟨_ | ⟨hanswer, hanswered⟩, _, hreports, hread, hget⟩
      cases hread with
      | @cons b login reports y responses first later hfirst hlater =>
        cases hreports
        obtain ⟨now, rfl⟩ := acknowledged_iff_eq.1 hanswer
        refine .cons ⟨login, hfirst, ?_, rfl⟩
          ((ih (tidy_reported ht login b)).2 ⟨?_, reports, rfl, ?_, ?_⟩)
        · rw [processedAt_acknowledgement]
        · exact hanswered.imp fun c y => (acknowledged_reported_iff ht login b c y).2
        · exact (readFrom_reported_iff ht).2 hlater
        · exact (hrest login reports).2 hget

/-- What the reports of a call come to whose store nobody else writes to; a login that does not tell when it
happened has done so at the reading that is taken for it.  A call that nothing hinders does not fail, a calm
call comes to its end, and one that is executed and has not failed has done the same with what the clock of
its world has shown. -/
theorem reports_change_logins_only (ht : t.Reachable) (activities : List UserActivity)
    (inbound : Inbound UserActivity)
    (hactivities : inbound.arrivals.map (·.content) = activities.map .ok) (hends : inbound.silent = false)
    (capacity : Nat) (enough : Option Nat) (attentive : Bool) :
    (∀ hindered readings responses t', (userActivityStream.whole (activities.map .ok)).EndsAt hindered
        readings t responses t' (.ok ()) ↔ Recorded t activities readings responses t')
    ∧ (∀ readings responses t' e, ¬ (userActivityStream.whole (activities.map .ok)).EndsAt false readings t
        responses t' (.error e))
    ∧ (∀ served : Bool, (Alone.start userActivityStream served inbound
        (.ofCapacity capacity ⟨enough, attentive, [], none⟩) t).Inevitably fun s =>
          s.life.stance.outbound.reader.ending = some .closed
            ∧ ∃ readings responses, s.life.stance.outbound.reader.received = responses.map .ok
                ∧ Recorded t activities readings responses s.table)
    ∧ ∀ (manner : Manner) (cancelAt : Option Nat) (context : Context) (tie : Tie) (cancelled : Bool)
        (w w' : World) (shown : List (Instant × Instant))
        (e : Exchange UserActivity UserActivityResponse Unit Unit)
        (state : CallState UserActivityResponse), manner ≠ .bare → w.Holds t →
        Exchange.GoesBy (.start manner cancelAt (.start userActivityStream inbound
          { CallState.start context tie (.ofCapacity capacity ⟨enough, attentive, [], none⟩) w.clock with
            cancelled }), w) shown (e, w') →
        e.phase = .ended (.ok ()) state →
        ∃ readings responses t', ReadIn shown readings ∧ w'.Holds t'
          ∧ Recorded t activities readings responses t'
          ∧ state.outbound.reader.messages <+: responses
          ∧ (state.outbound.reader.ending = some .closed →
              state.outbound.reader.received = responses.map .ok) := by
  rw [userActivityStream_eq_ofAnswers]
  refine ⟨fun hindered readings responses t' => ?_, fun readings responses t' e => ?_, fun served => ?_, ?_⟩
  · exact (Handler.endsAt_ofAnswers answersAt_recordActivity).trans (oneByOneAt_reported_iff ht.tidy)
  · exact Handler.not_endsAt_ofAnswers_error answersAt_recordActivity
  · refine (Alone.inevitably_oneByOneAt meets_reporting answersAt_recordActivity hactivities hends served
      capacity enough attentive).mono ?_
    rintro s ⟨hclosed, readings, responses, hread, hone⟩
    exact ⟨hclosed, readings, responses, hread, (oneByOneAt_reported_iff ht.tidy).1 hone⟩
  · intro manner cancelAt context tie cancelled w w' shown e state hchained hw hgoes hphase
    obtain ⟨readings, responses, t', hshown, hw', hone, hread⟩ := Alone.oneByOneAt_of_goesBy
      answersAt_recordActivity hactivities hw hchained hgoes hphase
    exact ⟨readings, responses, t', hshown, hw', (oneByOneAt_reported_iff ht.tidy).1 hone, hread⟩

/-- A store with an admin and a member. -/
def loginTable : Table :=
  let t : Table := (Table.perform .empty .epoch
    (.add ⟨1, "ada", .admin, none, none, none, none, [], .empty, [], none, none⟩)).2
  (t.perform .epoch (.add ⟨2, "bob", .member, none, none, none, none, [], .empty, [], none, none⟩)).2

/-- The admin logs in, somebody who is not stored does, the admin does something else, and is then told to
have logged in earlier; the member logs in at no time that is told. -/
def loginReports : List UserActivity :=
  [⟨1, .login, Instant.plus? .epoch (.ofSeconds 9), .empty⟩, ⟨3, .login, none, .empty⟩,
    ⟨1, .viewPage, none, .empty⟩, ⟨1, .login, Instant.plus? .epoch (.ofSeconds 5), .empty⟩,
    ⟨2, .login, none, .empty⟩]

/-- They arrive one after another. -/
def loginInbound : Inbound UserActivity := .ofArrivals (loginReports.map fun a => ⟨.ok a, 0⟩) false

/-- A call by which they are reported. -/
def loginCall : Exchange UserActivity UserActivityResponse Unit Unit :=
  .start .served none (.start userActivityStream loginInbound
    { CallState.start ((Request.userActivityStream loginInbound).context none) .nothing
        (.ofCapacity 8 ⟨none, true, [], none⟩) 0 with cancelled := false })

/-- The world in which they do. -/
def loginWorld : World := .start .epoch none ⟨.memory loginTable, [], []⟩

/-- The earlier login of the admin has come last and is kept, and the member has logged in by the clock. -/
theorem reports_change_logins_only_earlier_login :
    ∃ e w shown state readings responses t', Exchange.GoesBy (loginCall, loginWorld) shown (e, w)
      ∧ e.phase = .ended (.ok ()) state ∧ w.Holds t'
      ∧ state.outbound.reader.received = responses.map .ok
      ∧ state.outbound.reader.messages.map (fun y => (y.userId, y.acknowledged, y.message))
          = [(1, true, "Activity LOGIN recorded for user 1"), (3, false, "User 3 not found"),
            (1, true, "Activity VIEW_PAGE recorded for user 1"),
            (1, true, "Activity LOGIN recorded for user 1"), (2, true, "Activity LOGIN recorded for user 2")]
      ∧ ReadIn shown readings ∧ Recorded loginTable loginReports readings responses t'
      ∧ [1, 2].map (fun k => (t'.get? k).map fun u => u.lastLogin.map (·.seconds))
          = [some (some 5), some (some 0)] := by
  have hreachable : loginTable.Reachable := .perform (.perform .empty .epoch _) .epoch _
  obtain ⟨_, _, _, hexecuted⟩ :=
    reports_change_logins_only hreachable loginReports loginInbound rfl rfl 8 none true
  have hwork := Exchange.GoesBy.refl.move (.work loginCall loginWorld)
  have hgoes := hwork.move (.read (loginCall.work loginWorld).1 (loginCall.work loginWorld).2)
  obtain ⟨readings, responses, t', hshown, hw', hrecorded, _, hread⟩ := hexecuted .served none
    ((Request.userActivityStream loginInbound).context none) .nothing false loginWorld
    _ _ _ _ nofun ⟨rfl, nofun⟩ hgoes rfl
  have hlogins : (match (loginCall.work loginWorld).2.backend.engine with
      | .memory t => [1, 2].map fun k => (t.get? k).map fun u => u.lastLogin.map (·.seconds)
      | _ => []) = [some (some 5), some (some 0)] := by decide +kernel
  rw [show (loginCall.work loginWorld).2.backend.engine = .memory t' from hw'.engine] at hlogins
  exact ⟨_, _, _, _, readings, responses, t', hgoes, rfl, hw', hread (by decide +kernel), by decide +kernel,
    hshown, hrecorded, hlogins⟩

end UserDirectory.Service
