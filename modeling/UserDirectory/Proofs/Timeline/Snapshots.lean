import UserDirectory.Proofs.SortedMap
import UserDirectory.Proofs.Store.Upkeep
import UserDirectory.Proofs.Text.Decimal
import UserDirectory.Timeline.Refresher
/-!
# Whom a snapshot lets through in the course of time

A snapshot is made of one complete listing of the store, and it stays in place until the next one is
made.  So what is answered at any time follows from the users that were read last, and from nothing else:
what has become of the store since does not matter, nor does a refresh that has begun, or failed.  As long
as none has been read, nobody is let through.

The policy is the snapshot of what was read last: that is the invariant, and each step keeps it.

Main statements:
  * `approveBySnapshot_verdict`: what the snapshot of some users says about each caller and method;
  * `refresh_cases`: all that a refresh can come to;
  * `Runs.policy`: the invariant;
  * `runs_goOn`: who refreshes again and again is among what can happen;
  * `answers_follow_last_read`: all runs.
-/

namespace UserDirectory.Access

open UserDirectory.Service (Method)
open UserDirectory.Text

/-! ## §1. What a snapshot says. -/

/-- The answer where a condition decides: the method is forbidden unless the condition holds. -/
def Decides (condition : Prop) (text : String) (answer : Except PermissionError Unit) : Prop :=
  (condition ∧ answer = .ok ()) ∨ (¬ condition ∧ answer = .error (.denied text))

/-- The answer to a call of the method that a text names, on the strength of the users that were read
last, if any were.  A caller who is one of them is judged by the status and the role that were read; of
users with one number the last one counts.  Any other caller is judged by the roles of their token. -/
def Verdict (read : Option (List User)) (text : String) (claims : Claims)
    (answer : Except PermissionError Unit) : Prop :=
  match read with
  | none => answer = .error .notLoaded
  | some users =>
    ((∀ m : Method, m.fullName ≠ text) → answer = .error (.unmatched text))
    ∧ ∀ m : Method, m.fullName = text →
      (∀ before u after, users = before ++ u :: after → (∀ v ∈ after, v.id ≠ u.id) →
        claims.userId = Decimal.text u.id.toNat →
        Decides ((u.status = some .active ∨ u.status = none) ∧ m ∈ Method.granted u.role) text answer)
      ∧ ((∀ u ∈ users, claims.userId ≠ Decimal.text u.id.toNat) →
        Decides (∃ name ∈ claims.roles.keys, ∃ r : Role, r.name = name ∧ m ∈ Method.granted r)
          text answer)

variable {users before after : List User} {u : User} {m : Method} {claims : Claims} {text : String}

theorem decides_ite {c : Bool} {condition : Prop} (h : c = true ↔ condition) :
    Decides condition text (if c then .ok () else .error (.denied text)) := by
  cases c with
  | true => exact .inl ⟨h.1 rfl, rfl⟩
  | false => exact .inr ⟨fun hc => absurd (h.2 hc) Bool.false_ne_true, rfl⟩

/-- Texts of numbers tell numbers apart. -/
theorem text_id_inj {id id' : UInt32} (h : Decimal.text id.toNat = Decimal.text id'.toNat) :
    id = id' :=
  UInt32.toNat_inj.1 (Decimal.text_inj h)

/-- Of listed users with one number, the last one's grants are kept. -/
theorem grants_of_last (h : users = before ++ u :: after) (hlast : ∀ v ∈ after, v.id ≠ u.id) :
    (Snapshot.ofUsers users).grants.get? (Decimal.text u.id.toNat) = some (Snapshot.grantsOf u) := by
  have hlater : ((after.map fun v => (Decimal.text v.id.toNat, Snapshot.grantsOf v)).reverse.find?
      fun e => e.1 = Decimal.text u.id.toNat) = none := by
    rw [List.find?_eq_none]
    intro e he
    rw [List.mem_reverse] at he
    obtain ⟨v, hv, rfl⟩ := List.mem_map.1 he
    simpa using fun heq => hlast v hv (text_id_inj heq)
  subst h
  show (SortedMap.ofList _).get? _ = _
  rw [SortedMap.get?_ofList, List.map_append, List.map_cons, List.reverse_append, List.reverse_cons,
    List.append_assoc, List.find?_append, hlater]
  simp

/-- Nothing is kept for a number that is not listed. -/
theorem grants_of_unlisted {id : String} (h : ∀ u ∈ users, id ≠ Decimal.text u.id.toNat) :
    (Snapshot.ofUsers users).grants.get? id = none := by
  show (SortedMap.ofList _).get? _ = _
  rw [SortedMap.get?_ofList, Option.map_eq_none_iff, List.find?_eq_none]
  intro e he
  rw [List.mem_reverse] at he
  obtain ⟨u, hu, rfl⟩ := List.mem_map.1 he
  simpa using fun heq => h u hu heq.symm

theorem contains_grantsOf_iff : (Snapshot.grantsOf u).contains m = true
    ↔ (u.status = some .active ∨ u.status = none) ∧ m ∈ Method.granted u.role := by
  have huse : Snapshot.isInUse u = true ↔ u.status = some .active ∨ u.status = none := by
    unfold Snapshot.isInUse
    rw [Bool.or_eq_true, decide_eq_true_iff, decide_eq_true_iff, or_comm]
  unfold Snapshot.grantsOf
  rw [← huse]
  split
  · rename_i hyes
    rw [List.contains_iff_mem]
    exact ⟨fun hm => ⟨hyes, hm⟩, fun h => h.2⟩
  · rename_i hno
    exact ⟨fun hm => absurd hm (by simp), fun h => absurd h.1 hno⟩

theorem roleAllows_iff {name : String} : Snapshot.roleAllows m name = true
    ↔ ∃ r : Role, r.name = name ∧ m ∈ Method.granted r := by
  unfold Snapshot.roleAllows
  rw [List.any_eq_true]
  constructor
  · rintro ⟨r, _, hr⟩
    rw [Bool.and_eq_true, decide_eq_true_iff, List.contains_iff_mem] at hr
    exact ⟨r, hr⟩
  · rintro ⟨r, hr⟩
    have hall : r ∈ Role.all := by cases r <;> decide
    refine ⟨r, hall, ?_⟩
    rw [Bool.and_eq_true, decide_eq_true_iff, List.contains_iff_mem]
    exact hr

/-- What the snapshot of some users says is what follows from these users. -/
theorem approveBySnapshot_verdict (read : Option (List User)) (text : String) (claims : Claims) :
    Verdict read text claims (approveBySnapshot (read.map Snapshot.ofUsers) text claims) := by
  cases read with
  | none => rfl
  | some users =>
    refine ⟨fun hunknown => ?_, fun m hm => ?_⟩
    · -- no method has the name
      have hnone : Method.ofFullName? text = none := by
        rw [Option.eq_none_iff_forall_ne_some]
        intro m hm
        exact hunknown m (Method.ofFullName?_eq_some_iff.1 hm)
      unfold approveBySnapshot
      simp only [Option.map_some, hnone]
    · -- the grants of the method decide
      have hasked : approveBySnapshot ((some users).map Snapshot.ofUsers) text claims
          = if (Snapshot.ofUsers users).allows m claims then .ok () else .error (.denied text) := by
        unfold approveBySnapshot
        simp only [Option.map_some, Method.ofFullName?_eq_some_iff.2 hm]
      rw [hasked]
      refine ⟨fun before u after husers hlast hid => ?_, fun hunlisted => ?_⟩
      · refine decides_ite (Iff.trans ?_ contains_grantsOf_iff)
        unfold Snapshot.allows
        rw [hid, grants_of_last husers hlast]
      · refine decides_ite ?_
        unfold Snapshot.allows
        rw [grants_of_unlisted hunlisted]
        show claims.roles.keys.any (Snapshot.roleAllows m) = true ↔ _
        rw [List.any_eq_true]
        exact exists_congr fun name => and_congr_right fun _ => roleAllows_iff

end UserDirectory.Access

namespace UserDirectory.Timeline

open UserDirectory.Access (Claims PermissionError Snapshot Verdict approveBySnapshot_verdict)
open UserDirectory.Call (Gate Hold World)
open UserDirectory.Store (Engine StoreError Table)

/-! ## §2. One refresh. -/

variable {w : World} {h : Hold}

/-- A refresh that waits for the store has changed nothing about who is let through. -/
theorem refresh_gate_of_none (hwaits : (refresh w h).1 = none) : (refresh w h).2.1.gate = w.gate := by
  have hgate := attempt_gate w [.refresh] h everyone
  revert hwaits
  simp only [refresh]
  split <;> simp_all

/-- A refresh that has read the users puts their snapshot in place, whatever was there. -/
theorem refresh_of_read {users : List User}
    (hread : (w.attempt [.refresh] h everyone).1 = some (.ok users)) :
    (refresh w h).1 = some (.ok (Snapshot.ofUsers users).userCount)
      ∧ (refresh w h).2.1.gate
        = w.gate.map fun g => { g with policy := .snapshot (some (Snapshot.ofUsers users)) } := by
  have hgate := attempt_gate w [.refresh] h everyone
  simp only [refresh]
  split
  · simp_all
  · simp_all
  · rename_i read w₁ h₁ hattempt
    rw [hattempt] at hread hgate
    obtain rfl : read = users := Except.ok.inj (Option.some.inj hread)
    refine ⟨rfl, ?_⟩
    show w₁.gate.map _ = _
    rw [show w₁.gate = w.gate from hgate]

/-- All that a refresh can come to: it waits, it has failed, or it has read the users. -/
theorem refresh_cases (w : World) (h : Hold) :
    (refresh w h).1 = none
    ∨ (∃ e, (refresh w h).1 = some (.error e))
    ∨ ∃ users, (w.attempt [.refresh] h everyone).1 = some (.ok users)
        ∧ (refresh w h).1 = some (.ok (Snapshot.ofUsers users).userCount) := by
  cases hattempt : (w.attempt [.refresh] h everyone).1 with
  | none =>
    refine .inl ?_
    simp only [refresh]
    split <;> simp_all
  | some outcome =>
    cases outcome with
    | error e =>
      refine .inr (.inl ⟨e, ?_⟩)
      simp only [refresh]
      split <;> simp_all
    | ok users => exact .inr (.inr ⟨users, rfl, (refresh_of_read hattempt).1⟩)

/-- What is read from a table is the whole of it. -/
theorem select_everyone (t : Table) : t.select .everyone = .ok t.values := by
  show Except.ok (t.values.filter fun _ => true) = _
  rw [List.filter_eq_self.2 fun _ _ => rfl]

/-- An operation on a store in memory is one on its table. -/
theorem perform_of_memory {t : Table} (hmemory : w.backend.engine = .memory t)
    (spans : List Telemetry.Span) (op : Store.Operation) :
    (w.perform spans op).1 = (t.perform w.wall op).1 := by
  show (w.backend.engine.perform w.wall op).1 = _
  rw [hmemory]
  rfl

/-- What a refresh reads from a store in memory is all that stands there at that moment. -/
theorem read_of_memory {users : List User} {t : Table}
    (hread : (w.attempt [.refresh] h everyone).1 = some (.ok users))
    (hmemory : w.backend.engine = .memory t) : users = t.values := by
  -- to ask for the listing does not change what is stored
  have hask : (w.askOnce h everyone).2.1.backend.engine = .memory t := by
    unfold World.askOnce
    split
    · exact hmemory
    · exact hmemory
  simp only [World.attempt] at hread
  split at hread
  · have hundergo := Option.some.inj hread
    simp only [World.undergo] at hundergo
    split at hundergo
    · cases hundergo
    · -- the listing has been performed, whether or not a call has been cancelled with it
      rw [perform_of_memory (t := t) (by split <;> exact hask)] at hundergo
      have hlisted : (t.select .everyone : Except StoreError (List User)) = .ok users := hundergo
      rw [select_everyone t] at hlisted
      exact (Except.ok.inj hlisted).symm
  · cases hread

/-! ## §3. Refreshes one after another, among all that goes on. -/

/-- A world, and what holds up the refresh that is going on, if one is. -/
structure Watch where
  world : World
  current : Option Hold

namespace Watch

/-- What happens. -/
inductive Event
  /-- anything at all but what concerns the snapshot: users come, go and change, calls are made, time goes
  by -/
  | elsewhere
  | refreshBegun
  | refreshWaits
  | refreshFailed (e : StoreError)
  /-- these users have been read from a store -/
  | refreshed (store : Engine) (users : List User)
  | asked (text : String) (claims : Claims) (answer : Except PermissionError Unit)

/-- One step.  A refresh only begins when no other is going on. -/
inductive Step : Watch → Event → Watch → Prop
  | elsewhere {w w' : World} {current : Option Hold} (hgate : w'.gate = w.gate) :
      Step ⟨w, current⟩ .elsewhere ⟨w', current⟩
  | begin {w : World} : Step ⟨w, none⟩ .refreshBegun ⟨w, some .none_⟩
  | wait {w : World} {h : Hold} (hwaits : (refresh w h).1 = none) :
      Step ⟨w, some h⟩ .refreshWaits ⟨(refresh w h).2.1, some (refresh w h).2.2⟩
  | fail {w : World} {h : Hold} {e : StoreError} (hfailed : (refresh w h).1 = some (.error e)) :
      Step ⟨w, some h⟩ (.refreshFailed e) ⟨(refresh w h).2.1, none⟩
  | read {w : World} {h : Hold} {users : List User}
      (hread : (w.attempt [.refresh] h everyone).1 = some (.ok users)) :
      Step ⟨w, some h⟩ (.refreshed w.backend.engine users) ⟨(refresh w h).2.1, none⟩
  /-- the gate is asked whether a caller may call a method -/
  | ask {w : World} {current : Option Hold} {g : Gate} (hgate : w.gate = some g) (text : String)
      (claims : Claims) :
      Step ⟨w, current⟩ (.asked text claims (g.policy.approve text claims)) ⟨w, current⟩

/-- Any number of steps, and what happens at them. -/
inductive Runs (s : Watch) : List Event → Watch → Prop
  | refl : Runs s [] s
  | step {trace : List Event} {s' s'' : Watch} {event : Event} (hrun : Runs s trace s')
      (hstep : Step s' event s'') : Runs s (trace ++ [event]) s''

/-- The users that the last refresh has read that did not fail. -/
def lastRead (trace : List Event) : Option (List User) :=
  trace.foldl (fun last event =>
    match event with
    | .refreshed _ users => some users
    | _ => last) none

variable {s s' s'' : Watch} {trace trace' : List Event} {g : Gate}

theorem lastRead_concat (trace : List Event) (event : Event) :
    lastRead (trace ++ [event]) =
      match event with
      | .refreshed _ users => some users
      | _ => lastRead trace := by
  unfold lastRead
  rw [List.foldl_append]
  rfl

theorem Runs.trans (hrun : s.Runs trace s') (hrun' : s'.Runs trace' s'') :
    s.Runs (trace ++ trace') s'' := by
  induction hrun' with
  | refl =>
    rw [List.append_nil]
    exact hrun
  | step _ hstep ih =>
    rw [← List.append_assoc]
    exact .step ih hstep

/-- The policy is the snapshot of the users that were read last. -/
theorem Runs.policy (hgate : s.world.gate = some g) (hnew : g.policy = .snapshot none)
    (hrun : s.Runs trace s') :
    s'.world.gate
      = some { g with policy := .snapshot ((lastRead trace).map Snapshot.ofUsers) } := by
  induction hrun with
  | refl =>
    rw [hgate]
    show some g = some { g with policy := .snapshot none }
    rw [← hnew]
  | step _ hstep ih =>
    rw [lastRead_concat]
    cases hstep with
    | elsewhere hsame => exact hsame.trans ih
    | begin => exact ih
    | wait hwaits => exact (refresh_gate_of_none hwaits).trans ih
    | fail hfailed => exact (refresh_gate_of_error hfailed).trans ih
    | read hread =>
      rw [(refresh_of_read hread).2, show _ = _ from ih]
      rfl
    | ask _ text claims => exact ih

/-- What was read last was read at some time; from a store in memory, it was all that stood there. -/
theorem Runs.lastRead_eq (hrun : s.Runs trace s') {users : List User}
    (hread : lastRead trace = some users) :
    ∃ store, .refreshed store users ∈ trace ∧ ∀ t, store = .memory t → users = t.values := by
  induction hrun with
  | refl => cases hread
  | step _ hstep ih =>
    rw [lastRead_concat] at hread
    have hearlier : ∀ {event : Event}, lastRead _ = some users →
        ∃ store, .refreshed store users ∈ _ ++ [event] ∧ ∀ t, store = .memory t → users = t.values :=
      fun h =>
        have ⟨store, hmem, hall⟩ := ih h
        ⟨store, List.mem_append_left _ hmem, hall⟩
    cases hstep with
    | elsewhere _ => exact hearlier hread
    | begin => exact hearlier hread
    | wait _ => exact hearlier hread
    | fail _ => exact hearlier hread
    | read hnow =>
      cases hread
      exact ⟨_, List.mem_append_right _ (List.mem_singleton.2 rfl), fun t ht => read_of_memory hnow ht⟩
    | ask _ _ _ => exact hearlier hread

/-- Whoever refreshes again and again goes on with the refresh that is there, or begins the next one. -/
theorem runs_begin {r r' : Refresher} (hbegin : r.begin w.clock = some (h, r')) :
    ∃ trace, Runs ⟨w, r.current⟩ trace ⟨w, some h⟩ := by
  unfold Refresher.begin at hbegin
  split at hbegin
  · rename_i hcurrent
    cases hbegin
    rw [hcurrent]
    exact ⟨[], .refl⟩
  · rename_i hnone
    split at hbegin
    · cases hbegin
      rw [hnone]
      exact ⟨_, .step .refl .begin⟩
    · cases hbegin

/-- A refresh that has ended, one way or the other, leaves room for the next one. -/
theorem step_of_ended {ended : Except StoreError Nat} (hended : (refresh w h).1 = some ended) :
    ∃ event, Step ⟨w, some h⟩ event ⟨(refresh w h).2.1, none⟩ := by
  obtain hwaits | ⟨e, hfailed⟩ | ⟨users, hread, _⟩ := refresh_cases w h
  · rw [hwaits] at hended
    cases hended
  · exact ⟨_, .fail hfailed⟩
  · exact ⟨_, .read hread⟩

/-- Whoever refreshes again and again does one refresh after another. -/
theorem runs_goOn (n : Nat) (r : Refresher) (w : World) :
    ∃ trace, Runs ⟨w, r.current⟩ trace ⟨(r.goOn n w).2, (r.goOn n w).1.current⟩ := by
  induction n generalizing r w with
  | zero => exact ⟨[], .refl⟩
  | succ n ih =>
    unfold Refresher.goOn
    cases hbegin : r.begin w.clock with
    | none => exact ⟨[], .refl⟩
    | some begun =>
      obtain ⟨h, r'⟩ := begun
      obtain ⟨before, hgoes⟩ := runs_begin hbegin
      simp only
      split
      · rename_i w₁ h₁ hx
        have hstep := Step.wait (w := w) (h := h) (by rw [hx])
        rw [hx] at hstep
        exact ⟨_, hgoes.step hstep⟩
      · -- the end is noted, and then the next refresh may begin
        rename_i ended w₁ h₁ hx
        have hended : (refresh w h).1 = some ended := by rw [hx]
        obtain ⟨event, hstep⟩ := step_of_ended hended
        rw [hx] at hstep
        have hnoted : (Refresher.noteEnd w₁ ended).gate = w₁.gate := by
          cases ended <;> rfl
        obtain ⟨after, hafter⟩ := ih { r' with current := none } (Refresher.noteEnd w₁ ended)
        exact ⟨_, ((hgoes.step hstep).step (.elsewhere hnoted)).trans hafter⟩

/-- Whatever happens, whenever the gate is asked, and about whom: the answer follows from the users that
were read last, and before the first have been read it is that the policy is not there.  What was read
last from a store in memory was all that stood there at one moment.  A refresh that fails changes no
answer. -/
theorem answers_follow_last_read (hgate : s.world.gate = some g) (hnew : g.policy = .snapshot none)
    (hrun : s.Runs trace s') :
    (∀ text claims, ∃ answer,
        (∀ other, s'.Step (.asked text claims other) s' ↔ other = answer)
          ∧ Verdict (lastRead trace) text claims answer)
    ∧ (∀ users, lastRead trace = some users →
        ∃ store, .refreshed store users ∈ trace ∧ ∀ t, store = .memory t → users = t.values)
    ∧ ∀ e s'', s'.Step (.refreshFailed e) s'' → ∀ text claims answer,
        s''.Step (.asked text claims answer) s'' ↔ s'.Step (.asked text claims answer) s' := by
  have hpolicy := hrun.policy hgate hnew
  have hanswers : ∀ {x : Watch} {text claims answer}, x.world.gate
      = some { g with policy := .snapshot ((lastRead trace).map Snapshot.ofUsers) } →
      (x.Step (.asked text claims answer) x
        ↔ answer = Access.approveBySnapshot ((lastRead trace).map Snapshot.ofUsers) text claims) := by
    intro x text claims answer hx
    constructor
    · intro hstep
      cases hstep with
      | ask hsome _ _ =>
        rw [hx] at hsome
        cases hsome
        rfl
    · intro heq
      rw [heq]
      exact .ask hx text claims
  refine ⟨fun text claims => ⟨_, fun other => hanswers hpolicy, approveBySnapshot_verdict _ _ _⟩,
    fun users hread => hrun.lastRead_eq hread, fun e s'' hstep text claims answer => ?_⟩
  -- the run goes on with the failure, after which the same users were read last
  have hafter := (hrun.step hstep).policy hgate hnew
  rw [lastRead_concat] at hafter
  exact (hanswers hafter).trans (hanswers hpolicy).symm

/-- An admin whose status is not set. -/
def chief : User :=
  ⟨1, "ada", .admin, none, none, none, none, [], ∅, [], none, none⟩

/-- A world in which the admin is stored, and no snapshot has been made. -/
def unread : World :=
  .start .epoch (some ⟨⟨"directory", 3600, fun _ => []⟩, .snapshot none⟩)
    ⟨.memory (SortedMap.empty.insert 1 chief), [], []⟩

/-- Claims about the first user, who has no role in them. -/
def claimsOfFirst : Claims := ⟨"1", "ada", "", ∅, "", "", 0, 0, 0⟩

/-- An admin who was read is still let through when they have been removed since, whatever their token
says. -/
theorem answers_follow_last_read_removed :
    ∃ (g : Gate) (trace : List Event) (s : Watch), unread.gate = some g ∧ g.policy = .snapshot none
      ∧ Runs ⟨unread, none⟩ trace s ∧ s.world.backend.engine = .memory .empty
      ∧ s.Step (.asked Service.Method.deleteUser.fullName claimsOfFirst (.ok ())) s := by
  have hread : (unread.attempt [.refresh] .none_ everyone).1 = some (.ok [chief]) := rfl
  have begun : Runs ⟨unread, none⟩ _ _ := .step .refl .begin
  have read := begun.step (.read hread)
  have hgate : World.gate { (refresh unread .none_).2.1 with backend := ⟨.memory .empty, [], []⟩ }
      = (refresh unread .none_).2.1.gate := rfl
  have removed := read.step (.elsewhere hgate)
  obtain ⟨hanswers, _, _⟩ := answers_follow_last_read rfl rfl removed
  obtain ⟨answer, hasked, hverdict⟩ := hanswers Service.Method.deleteUser.fullName claimsOfFirst
  refine ⟨_, _, _, rfl, rfl, removed, rfl, (hasked _).2 ?_⟩
  -- the admin was read last, in use and with a role that is granted everything
  have hstored := (hverdict.2 .deleteUser rfl).1 [] chief [] rfl (fun v hv => by cases hv) (by decide +kernel)
  rcases hstored with ⟨_, hok⟩ | ⟨hno, _⟩
  · exact hok.symm
  · exact absurd ⟨.inr rfl, by decide⟩ hno

end Watch

end UserDirectory.Timeline
