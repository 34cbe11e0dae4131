import UserDirectory.Proofs.Call.Brief
import UserDirectory.Proofs.Service.Ending
/-!
# What becomes of a batch

A batch comes to what it comes to that its users are added one after another, each by a call of its own
with the same readings of the clock; one who is refused does not matter to the others.  What is answered
counts them and tells in their order why some were refused.

Main statements:
  * `endsAt_batchItem`: one user of a batch comes to what a call comes to by which the user is added;
  * `endsAt_batchLoop`, `endsAt_batch_whole`, `endsAt_batch_broken`: what some users come to one after
    another;
  * `sumsUp_iff`: what the counters and the sentences are at the end;
  * `batches_add_one_by_one`: what becomes of a batch.
-/

namespace UserDirectory.Service

open UserDirectory.Call
open UserDirectory.Store (Table)
open UserDirectory.Text
open UserDirectory.Time (Instant)

variable {ο : Type} {hindered : Bool} {readings : List Instant} {t t' : Table} {sent : List ο} {u : User} {users : List User}
  {totals : BatchTotals} {outcomes : List (Except ServiceError Unit)} {y : BatchAddUsersResponse}

/-! ## §1. One user. -/

/-- What a call comes to by which a user is added, with some readings and from one table to another. -/
def AddedAt (readings : List Instant) (t : Table) (u : User) (outcome : Except ServiceError Unit)
    (t' : Table) : Prop :=
  (addUser u : Call.Action Empty Unit).EndsAt false readings t [] t' outcome

theorem addedAt_iff {outcome : Except ServiceError Unit} :
    AddedAt readings t u outcome t' ↔ ∃ now, ReadFor u t now readings ∧ t' = (created now u t).2
      ∧ outcome = (created now u t).1 := by
  unfold AddedAt
  rw [endsAt_addUser, endsAt_create]
  constructor
  · rintro (⟨_, h⟩ | ⟨h, _⟩)
    · exact h
    · cases h
  · exact fun h => .inl ⟨rfl, h⟩

/-- What has become of a batch when one more user has been added or refused. -/
def counted (totals : BatchTotals) : Except ServiceError Unit → BatchTotals
  | .ok () => { totals with received := totals.received + 1, added := totals.added + 1 }
  | .error e => { totals with
      received := totals.received + 1
      errors := totals.errors ++ [batchError (totals.received + 1) e] }

/-- A user of a batch is added or refused as by a call, and counted; only in a hindered call that is not
done. -/
theorem endsAt_batchItem {r : Except ServiceError BatchTotals} :
    (batchItem totals u : Action ο BatchTotals).EndsAt hindered readings t sent t' r
      ↔ (sent = [] ∧ ∃ outcome, AddedAt readings t u outcome t' ∧ r = .ok (counted totals outcome))
        ∨ (hindered = true ∧ readings = [] ∧ sent = [] ∧ t' = t ∧ r = .error .cancelled) := by
  unfold batchItem
  refine Action.endsAt_ensureLive_bind.trans (or_congr_left ?_)
  refine (Action.endsAt_outcome_map (g := counted totals)
    fun outcome _ _ _ hcreate _ _ _ _ _ => ?_).trans ?_
  · -- to add a user is not given up, so it is counted whatever has become of it
    have hne : outcome ≠ .error .cancelled := by
      obtain ⟨_, now, _, _, rfl⟩ := endsAt_create.1 hcreate
      exact created_ne_cancelled now u t
    cases outcome with
    | ok _ => exact Iff.rfl
    | error e =>
      cases e with
      | cancelled => exact absurd rfl hne
      | _ => exact Iff.rfl
  · simp only [endsAt_create, addedAt_iff]
    constructor
    · rintro ⟨outcome, ⟨rfl, h⟩, hr⟩
      exact ⟨rfl, outcome, h, hr⟩
    · rintro ⟨rfl, outcome, h, hr⟩
      exact ⟨outcome, ⟨rfl, h⟩, hr⟩

/-! ## §2. One user after another. -/

section

variable {contents : List (Except Status User)} {r : Except ServiceError BatchAddUsersResponse}

/-- The users who arrive first are added one after another, and then what arrives after them is dealt
with.  Only a hindered call may be given up before that. -/
theorem endsAt_batchLoop (hkept : hindered = false ∨ r ≠ .error .cancelled) :
    ((batchAddUsers (ο := ο)).loop (users.map .ok ++ contents) totals).EndsAt hindered readings t sent t' r
      ↔ ∃ earlier later outcomes t₁, readings = earlier ++ later
          ∧ OneByOneAt AddedAt earlier t users outcomes t₁
          ∧ (batchAddUsers.loop contents (outcomes.foldl counted totals)).EndsAt hindered later t₁ sent t'
              r := by
  induction users generalizing readings t totals sent with
  | nil =>
    constructor
    · -- nobody is left, and all that is read is read afterwards
      exact fun h => ⟨[], readings, [], t, rfl, .nil t, h⟩
    · rintro ⟨_, _, _, _, rfl, ⟨⟩, h⟩
      exact h
  | cons u users ih =>
    refine (Action.endsAt_bind (a := batchItem totals u)).trans ⟨?_, ?_⟩
    · rintro (⟨first, _, t₁, _, _, rest, hitem, hrest, rfl, rfl⟩ | ⟨e, hitem, rfl⟩)
      · rcases endsAt_batchItem.1 hitem with ⟨rfl, outcome, hadded, hok⟩ | ⟨_, _, _, _, hcancelled⟩
        · cases hok
          obtain ⟨earlier, later, outcomes, t₂, rfl, hone, hcontents⟩ := ih.1 hrest
          exact ⟨first ++ earlier, later, outcome :: outcomes, t₂, (List.append_assoc _ _ _).symm,
            .cons hadded hone, hcontents⟩
        · cases hcancelled
      · rcases endsAt_batchItem.1 hitem with ⟨_, _, _, herror⟩ | ⟨hhindered, _, _, _, hcancelled⟩
        · cases herror
        · -- only a hindered call is given up here, and it says so
          cases hcancelled
          rcases hkept with hfree | hne
          · cases hfree.symm.trans hhindered
          · exact absurd rfl hne
    · rintro ⟨_, later, _, t₂, rfl, _ | ⟨hadded, hone⟩, hcontents⟩
      exact .inl ⟨_, [], _, _, _, sent, endsAt_batchItem.2 (.inl ⟨rfl, _, hadded, rfl⟩),
        ih.2 ⟨_, later, _, t₂, rfl, hone, hcontents⟩, List.append_assoc _ _ _, rfl⟩

/-- The answer to a batch at an instant. -/
def summary (totals : BatchTotals) (now : Instant) : BatchAddUsersResponse :=
  ⟨totals.received, totals.added, totals.received - totals.added, totals.errors, now⟩

/-- Where the users end normally the batch is summed up, and the clock is read once more. -/
theorem endsAt_batch_whole (hkept : hindered = false ∨ r ≠ .error .cancelled) :
    ((batchAddUsers (ο := ο)).whole (users.map .ok)).EndsAt hindered readings t sent t' r
      ↔ sent = [] ∧ ∃ earlier outcomes now, readings = earlier ++ [now]
          ∧ OneByOneAt AddedAt earlier t users outcomes t'
          ∧ r = .ok (summary (outcomes.foldl counted .zero) now) := by
  rw [← List.append_nil (users.map .ok : List (Except Status User))]
  refine (endsAt_batchLoop hkept).trans ⟨?_, ?_⟩
  · rintro ⟨earlier, _, outcomes, t₁, rfl, hone, now, _, rfl, rfl, rfl, rfl, rfl⟩
    exact ⟨rfl, earlier, outcomes, now, rfl, hone, rfl⟩
  · rintro ⟨rfl, earlier, outcomes, now, rfl, hone, rfl⟩
    exact ⟨earlier, [now], outcomes, t', rfl, hone, now, [], rfl, rfl, rfl, rfl, rfl⟩

/-- Where the connection fails the batch does, and who has arrived before has been added. -/
theorem endsAt_batch_broken {cause : Status} (hkept : hindered = false ∨ r ≠ .error .cancelled) :
    ((batchAddUsers (ο := ο)).whole (users.map .ok ++ .error cause :: contents)).EndsAt hindered readings t
        sent t' r
      ↔ sent = [] ∧ r = .error (inboundFailure cause)
          ∧ ∃ outcomes, OneByOneAt AddedAt readings t users outcomes t' := by
  refine (endsAt_batchLoop hkept).trans ⟨?_, ?_⟩
  · rintro ⟨earlier, _, outcomes, t₁, rfl, hone, rfl, rfl, rfl, rfl⟩
    rw [List.append_nil]
    exact ⟨rfl, rfl, outcomes, hone⟩
  · rintro ⟨rfl, rfl, outcomes, hone⟩
    exact ⟨readings, [], outcomes, t', (List.append_nil _).symm, hone, rfl, rfl, rfl, rfl⟩

end

/-! ## §3. The answer. -/

/-- The sentence about somebody who was refused, by the place among all who have arrived. -/
def refusedAs (place : Nat) (e : ServiceError) : String :=
  "user " ++ Decimal.text place ++ ": "
    ++ if e = .invalidArgument "user ID must be greater than 0" then "ID must be greater than 0"
      else e.message

/-- The sentences about those who were refused, in their order; the first who has arrived has a place. -/
def refusals (first : Nat) (outcomes : List (Except ServiceError Unit)) : List String :=
  (outcomes.zipIdx first).filterMap fun (outcome, place) =>
    match outcome with
    | .ok _ => none
    | .error e => some (refusedAs place e)

/-- The answer to a batch tells what has become of its users. -/
structure SumsUp (outcomes : List (Except ServiceError Unit)) (y : BatchAddUsersResponse) : Prop where
  received : y.totalReceived.toNat = outcomes.length
  added : y.totalAdded.toNat = outcomes.countP (·.isOk)
  failed : y.totalFailed.toNat = outcomes.countP (!·.isOk)
  errors : y.errors = refusals 1 outcomes

theorem refusals_ok (first : Nat) :
    refusals first (.ok () :: outcomes) = refusals (first + 1) outcomes := rfl

theorem refusals_error (first : Nat) (e : ServiceError) :
    refusals first (.error e :: outcomes) = refusedAs first e :: refusals (first + 1) outcomes := rfl

theorem length_refusals (first : Nat) (outcomes : List (Except ServiceError Unit)) :
    (refusals first outcomes).length = outcomes.countP (!·.isOk) := by
  induction outcomes generalizing first with
  | nil => rfl
  | cons outcome outcomes ih =>
    cases outcome with
    | ok _ =>
      rw [refusals_ok, ih, List.countP_cons_of_neg Bool.false_ne_true]
    | error e =>
      rw [refusals_error, List.length_cons, ih, List.countP_cons_of_pos rfl]

theorem batchError_eq (place : UInt32) (e : ServiceError) : batchError place e = refusedAs place.toNat e :=
  rfl

theorem toNat_succ {n : UInt32} (h : n.toNat + 1 < UInt32.size) : (n + 1).toNat = n.toNat + 1 := by
  rw [UInt32.toNat_add]
  exact Nat.mod_eq_of_lt h

/-- What the counters and the sentences are when some more users have been added or refused. -/
theorem foldl_counted (hroom : totals.received.toNat + outcomes.length < UInt32.size)
    (hle : totals.added.toNat ≤ totals.received.toNat) :
    (outcomes.foldl counted totals).received.toNat = totals.received.toNat + outcomes.length
      ∧ (outcomes.foldl counted totals).added.toNat = totals.added.toNat + outcomes.countP (·.isOk)
      ∧ (outcomes.foldl counted totals).errors
        = totals.errors ++ refusals (totals.received.toNat + 1) outcomes := by
  induction outcomes generalizing totals with
  | nil => exact ⟨rfl, rfl, (List.append_nil _).symm⟩
  | cons outcome outcomes ih =>
    rw [List.length_cons] at hroom
    -- the counters do not go round while there is room
    have hreceived : (totals.received + 1).toNat = totals.received.toNat + 1 := toNat_succ (by omega)
    have hmore := @ih (counted totals outcome)
    cases outcome with
    | ok _ =>
      have hadded : (totals.added + 1).toNat = totals.added.toNat + 1 := toNat_succ (by omega)
      simp only [counted, hreceived, hadded] at hmore
      obtain ⟨hlength, hcount, herrors⟩ := hmore (by omega) (by omega)
      rw [List.foldl_cons, List.length_cons, List.countP_cons_of_pos rfl, refusals_ok]
      exact ⟨hlength.trans (by omega), hcount.trans (by omega), herrors⟩
    | error e =>
      simp only [counted, hreceived] at hmore
      obtain ⟨hlength, hcount, herrors⟩ := hmore (by omega) (by omega)
      rw [List.foldl_cons, List.length_cons, List.countP_cons_of_neg Bool.false_ne_true, refusals_error]
      refine ⟨hlength.trans (by omega), hcount, herrors.trans ?_⟩
      rw [List.append_assoc, batchError_eq, hreceived]
      rfl

theorem length_eq_countP (outcomes : List (Except ServiceError Unit)) :
    outcomes.length = outcomes.countP (·.isOk) + outcomes.countP (!·.isOk) := by
  simpa using List.length_eq_countP_add_countP (·.isOk) (l := outcomes)

/-- What is told about less than so many users is what the counters and the sentences come to. -/
theorem sumsUp_iff (hroom : outcomes.length < UInt32.size) :
    SumsUp outcomes y ↔ y = summary (outcomes.foldl counted .zero) y.processedAt := by
  have hzero : BatchTotals.zero.received.toNat + outcomes.length < UInt32.size := by
    rwa [show BatchTotals.zero.received.toNat = 0 from rfl, Nat.zero_add]
  obtain ⟨hreceived, hadded, herrors⟩ := foldl_counted hzero (Nat.le_refl 0)
  generalize outcomes.foldl counted .zero = totals at *
  replace hreceived : totals.received.toNat = outcomes.length := hreceived.trans (Nat.zero_add _)
  replace hadded : totals.added.toNat = outcomes.countP (·.isOk) := hadded.trans (Nat.zero_add _)
  have hcount := length_eq_countP outcomes
  have hfailed : (totals.received - totals.added).toNat = outcomes.countP (!·.isOk) := by
    rw [UInt32.toNat_sub_of_le _ _ (UInt32.le_iff_toNat_le.2 (by omega))]
    omega
  constructor
  · obtain ⟨received, added, failed, errors, now⟩ := y
    rintro ⟨hreceived', hadded', hfailed', herrors'⟩
    cases UInt32.toNat_inj.1 (hreceived'.trans hreceived.symm)
    cases UInt32.toNat_inj.1 (hadded'.trans hadded.symm)
    cases UInt32.toNat_inj.1 (hfailed'.trans hfailed.symm)
    cases herrors'.trans herrors.symm
    rfl
  · intro hy
    rw [hy]
    exact ⟨hreceived, hadded, hfailed, herrors⟩

/-! ## §4. Batches. -/

/-- A batch of less than so many users that does not fail has added them one after another and tells it,
with the last reading of the clock. -/
theorem endsAt_batch_ok (hroom : users.length < UInt32.size) :
    ((batchAddUsers (ο := ο)).whole (users.map .ok)).EndsAt hindered readings t sent t' (.ok y)
      ↔ sent = [] ∧ ∃ earlier outcomes, readings = earlier ++ [y.processedAt]
          ∧ OneByOneAt AddedAt earlier t users outcomes t' ∧ SumsUp outcomes y := by
  rw [endsAt_batch_whole (r := .ok y) (.inr nofun)]
  refine and_congr_right fun _ => exists_congr fun earlier => exists_congr fun outcomes => ?_
  constructor
  · rintro ⟨now, rfl, hone, hy⟩
    cases hy
    exact ⟨rfl, hone, (sumsUp_iff (hone.length_eq ▸ hroom)).2 rfl⟩
  · rintro ⟨rfl, hone, hsum⟩
    exact ⟨y.processedAt, rfl, hone, congrArg _ ((sumsUp_iff (hone.length_eq ▸ hroom)).1 hsum)⟩

theorem brief_batchAddUsers : (batchAddUsers (ο := ο)).Brief 4 := by
  refine Handler.brief_ofItems (fun totals u => ?_) fun totals => ?_
  · refine Action.brief_bind (n := 1) (m := 3) Action.brief_ensureLive fun _ => ?_
    refine Action.Quiet.brief (Action.quiet_bind (m := 0) (Action.quiet_outcome (quiet_create u)) ?_)
    intro outcome
    cases outcome with
    | ok _ => exact Action.quiet_pure _
    | error e => cases e <;> first | exact Action.quiet_throw _ | exact Action.quiet_pure _
  · exact Action.Quiet.brief (Action.Quiet.mono (Action.quiet_bind (n := 1) (Action.quiet_note rfl) fun _ =>
      Action.quiet_bind (m := 0) Action.quiet_clock fun _ => Action.quiet_pure _) (by decide))

theorem kind_inboundFailure (cause : Status) : (inboundFailure cause).kind
    = if cause.code = .cancelled ∨ cause.code = .deadlineExceeded then .cancelled else .internal := by
  unfold inboundFailure
  cases cause.code <;> rfl

/-- What becomes of a batch whose store nobody else writes to: what the calls come to by which its users
are added one after another with the same readings of the clock, and one more for the answer.  A batch that
nothing hinders fails only with the connection, a calm one comes to its end, and one that is executed and has
not failed has done the same with what the clock of its world has shown. -/
theorem batches_add_one_by_one (t : Table) (users : List User) (hroom : users.length < UInt32.size)
    (inbound : Inbound User) (capacity : Nat) (enough : Option Nat) (attentive : Bool) :
    (inbound.arrivals.map (·.content) = users.map .ok → inbound.silent = false →
      (∀ hindered readings sent t' y, ((batchAddUsers (ο := ο)).whole (users.map .ok)).EndsAt hindered
          readings t sent t' (.ok y)
        ↔ sent = [] ∧ ∃ earlier outcomes, readings = earlier ++ [y.processedAt]
            ∧ OneByOneAt AddedAt earlier t users outcomes t' ∧ SumsUp outcomes y)
      ∧ (∀ readings sent t' e, ¬ ((batchAddUsers (ο := ο)).whole (users.map .ok)).EndsAt false readings t
          sent t' (.error e))
      ∧ (∀ served : Bool, (Alone.start (batchAddUsers (ο := ο)) served inbound
          (.ofCapacity capacity ⟨enough, attentive, [], none⟩) t).Inevitably fun s =>
            ∃ readings outcomes y unsent, s.life.spot = .ended (.ok y) unsent
              ∧ OneByOneAt AddedAt readings t users outcomes s.table ∧ SumsUp outcomes y)
      ∧ ∀ (manner : Manner) (cancelAt : Option Nat) (context : Context) (tie : Tie) (cancelled : Bool)
          (w w' : World) (shown : List (Instant × Instant))
          (e : Exchange User ο BatchTotals BatchAddUsersResponse) (state : CallState ο)
          (y : BatchAddUsersResponse), manner ≠ .bare → w.Holds t →
          Exchange.GoesBy (.start manner cancelAt (.start batchAddUsers inbound
            { CallState.start context tie (.ofCapacity capacity ⟨enough, attentive, [], none⟩) w.clock with
              cancelled }), w) shown (e, w') →
          e.phase = .ended (.ok y) state →
          ∃ readings outcomes t', ReadIn shown (readings ++ [y.processedAt]) ∧ w'.Holds t'
            ∧ OneByOneAt AddedAt readings t users outcomes t' ∧ SumsUp outcomes y)
    ∧ (∀ cause rest, inbound.arrivals.map (·.content) = users.map .ok ++ .error cause :: rest →
      (∀ readings sent t' r, ((batchAddUsers (ο := ο)).whole
          (users.map .ok ++ .error cause :: rest)).EndsAt false readings t sent t' r
        ↔ sent = [] ∧ r = .error (inboundFailure cause)
            ∧ ∃ outcomes, OneByOneAt AddedAt readings t users outcomes t')
      ∧ (inboundFailure cause).kind
          = (if cause.code = .cancelled ∨ cause.code = .deadlineExceeded then .cancelled else .internal)
      ∧ (∀ served : Bool, (Alone.start (batchAddUsers (ο := ο)) served inbound
          (.ofCapacity capacity ⟨enough, attentive, [], none⟩) t).Inevitably fun s =>
            ∃ readings outcomes unsent, s.life.spot = .ended (.error (inboundFailure cause)) unsent
              ∧ OneByOneAt AddedAt readings t users outcomes s.table)
      ∧ ∀ (manner : Manner) (cancelAt : Option Nat) (context : Context) (tie : Tie) (cancelled : Bool)
          (w w' : World) (e : Exchange User ο BatchTotals BatchAddUsersResponse) (state : CallState ο)
          (y : BatchAddUsersResponse), manner ≠ .bare → w.Holds t →
          Exchange.Goes (.start manner cancelAt (.start batchAddUsers inbound
            { CallState.start context tie (.ofCapacity capacity ⟨enough, attentive, [], none⟩) w.clock with
              cancelled }), w) (e, w') →
          e.phase ≠ .ended (.ok y) state)
    ∧ ∀ outcomes y, SumsUp outcomes y →
        y.totalReceived.toNat = y.totalAdded.toNat + y.totalFailed.toNat
          ∧ y.errors.length = y.totalFailed.toNat := by
  refine ⟨fun hcontents hends => ?_, fun cause rest hcontents => ?_, fun outcomes y h => ?_⟩
  · have hnever : ∀ readings sent t' e, ¬ ((batchAddUsers (ο := ο)).whole (users.map .ok)).EndsAt false
        readings t sent t' (.error e) := by
      intro readings sent t' e h
      obtain ⟨_, _, _, _, _, _, herror⟩ := (endsAt_batch_whole (.inl rfl)).1 h
      cases herror
    refine ⟨fun _ _ _ _ _ => endsAt_batch_ok hroom, hnever, fun served => ?_, ?_⟩
    · refine (Alone.inevitably_ended brief_batchAddUsers served (fun hsilent => ?_) capacity enough
        attentive t).mono ?_
      · cases hends.symm.trans hsilent
      · rintro s ⟨r, unsent, hspot, hwhole⟩
        rw [hcontents] at hwhole
        obtain ⟨_, hwhole⟩ := Action.ends_iff_exists_endsAt.1 hwhole
        cases r with
        | error e => exact absurd hwhole (hnever _ _ _ _)
        | ok y =>
          obtain ⟨_, readings, outcomes, _, hone, hsum⟩ := (endsAt_batch_ok hroom).1 hwhole
          exact ⟨readings, outcomes, y, unsent, hspot, hone, hsum⟩
    · intro manner cancelAt context tie cancelled w w' shown e state y hchained hw hgoes hphase
      obtain ⟨_, sent, t', hshown, hw', hwhole, _⟩ := Alone.endsAt_of_goesBy hw _ hchained cancelAt inbound
        context tie cancelled capacity enough attentive hgoes hphase
      rw [hcontents] at hwhole
      obtain ⟨_, readings, outcomes, rfl, hone, hsum⟩ := (endsAt_batch_ok hroom).1 hwhole
      exact ⟨readings, outcomes, t', hshown, hw', hone, hsum⟩
  · refine ⟨fun _ _ _ _ => endsAt_batch_broken (.inl rfl), kind_inboundFailure cause, fun served => ?_, ?_⟩
    · refine (Alone.inevitably_ended brief_batchAddUsers served (fun _ => ⟨cause, ?_⟩) capacity enough
        attentive t).mono ?_
      · rw [hcontents]
        exact List.mem_append_right _ List.mem_cons_self
      · rintro s ⟨r, unsent, hspot, hwhole⟩
        rw [hcontents] at hwhole
        obtain ⟨readings, hwhole⟩ := Action.ends_iff_exists_endsAt.1 hwhole
        obtain ⟨_, rfl, outcomes, hone⟩ := (endsAt_batch_broken (.inl rfl)).1 hwhole
        exact ⟨readings, outcomes, unsent, hspot, hone⟩
    · intro manner cancelAt context tie cancelled w w' e state y hchained hw hgoes hphase
      obtain ⟨shown, hgoesBy⟩ := Exchange.goes_iff_exists_goesBy.1 hgoes
      obtain ⟨_, sent, t', _, hw', hwhole, _⟩ := Alone.endsAt_of_goesBy hw _ hchained cancelAt inbound
        context tie cancelled capacity enough attentive hgoesBy hphase
      rw [hcontents] at hwhole
      obtain ⟨_, herror, _⟩ := (endsAt_batch_broken (r := .ok y) (.inr nofun)).1 hwhole
      cases herror
  · obtain ⟨hreceived, hadded, hfailed, herrors⟩ := h
    rw [hreceived, hadded, hfailed, herrors, length_refusals]
    exact ⟨length_eq_countP outcomes, rfl⟩

/-- A guest, an admin, the admin once more, somebody without a number, somebody under the name of the
admin, and a member. -/
def mixedUsers : List User :=
  [⟨1, "eve", .guest, none, none, none, none, [], .empty, [], none, none⟩,
    ⟨1, "ada", .admin, none, none, none, none, [], .empty, [], none, none⟩,
    ⟨1, "ada", .admin, none, none, none, none, [], .empty, [], none, none⟩,
    ⟨0, "eve", .member, none, none, none, none, [], .empty, [], none, none⟩,
    ⟨2, "ada", .member, none, none, none, none, [], .empty, [], none, none⟩,
    ⟨2, "bob", .member, none, none, none, none, [], .empty, [], none, none⟩]

/-- They arrive one after another. -/
def mixedInbound : Inbound User := .ofArrivals (mixedUsers.map fun u => ⟨.ok u, 0⟩) false

/-- A call by which they are added. -/
def mixedBatch : Exchange User Unit BatchTotals BatchAddUsersResponse :=
  .start .served none (.start batchAddUsers mixedInbound
    { CallState.start ((Request.batchAddUsers mixedInbound).context none) .nothing
        (.ofCapacity 8 ⟨none, true, [], none⟩) 0 with cancelled := false })

/-- Four of them are refused, and it is told why; where the connection fails after them, so does the
call. -/
theorem batches_add_one_by_one_mixed :
    (∃ e w shown state y readings outcomes t',
      Exchange.GoesBy (mixedBatch, .start .epoch none .empty) shown (e, w)
      ∧ e.phase = .ended (.ok y) state ∧ w.Holds t'
      ∧ (y.totalReceived, y.totalAdded, y.totalFailed) = (6, 2, 4)
      ∧ y.errors = ["user 1: first user created must be an admin", "user 3: user with ID 1 already exists",
          "user 4: ID must be greater than 0", "user 5: username ada already exists"]
      ∧ ReadIn shown (readings ++ [y.processedAt])
      ∧ OneByOneAt AddedAt readings .empty mixedUsers outcomes t' ∧ SumsUp outcomes y)
    ∧ (Alone.start (batchAddUsers (ο := Unit)) true
        (.ofArrivals (mixedInbound.arrivals ++ [⟨.error ⟨.deadlineExceeded, "late"⟩, 0⟩]) true)
        (.ofCapacity 8 ⟨none, true, [], none⟩) .empty).Inevitably fun s =>
          ∃ readings outcomes unsent, s.life.spot = .ended (.error .cancelled) unsent
            ∧ OneByOneAt AddedAt readings .empty mixedUsers outcomes s.table := by
  constructor
  · obtain ⟨_, _, _, hexecuted⟩ := (batches_add_one_by_one (ο := Unit) .empty mixedUsers (by decide)
      mixedInbound 8 none true).1 rfl rfl
    have hgoes := Exchange.GoesBy.refl.move (.work mixedBatch (.start .epoch none .empty))
    obtain ⟨readings, outcomes, t', hshown, hw', hone, hsum⟩ := hexecuted .served none
      ((Request.batchAddUsers mixedInbound).context none) .nothing false (.start .epoch none .empty)
      _ _ _ _ _ nofun ⟨rfl, nofun⟩ hgoes rfl
    exact ⟨_, _, _, _, _, readings, outcomes, t', hgoes, rfl, hw', by decide +kernel, by decide +kernel,
      hshown, hone, hsum⟩
  · obtain ⟨_, _, hcalm, _⟩ := (batches_add_one_by_one (ο := Unit) .empty mixedUsers (by decide)
      (.ofArrivals (mixedInbound.arrivals ++ [⟨.error ⟨.deadlineExceeded, "late"⟩, 0⟩]) true) 8 none
      true).2.1 ⟨.deadlineExceeded, "late"⟩ [] rfl
    exact hcalm true

end UserDirectory.Service
