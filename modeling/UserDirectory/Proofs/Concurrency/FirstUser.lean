import UserDirectory.Proofs.Concurrency.Counting
import UserDirectory.Proofs.Concurrency.Upkeep
/-!
# The first user of a store

Whether a user may be the first one is decided by a count, and the user is added only afterwards; what
other calls do can come in between.  It does no harm: a table to which nothing has been added is empty,
so everybody who counts before the first user is there finds nobody, and whoever finds nobody adds an
admin or nobody at all.

Main statements:
  * `Silent.step`, `Course.Fails.step`, `Course.Refused.tells`: what becomes of a refusal;
  * `System.Runs.follows`: what one of the calls keeps, whatever the others do meanwhile;
  * `System.Runs.untouched`, `System.Runs.first_added`: the time before anybody is added, and its end;
  * `System.first_user_is_admin`: all calls together.
-/

namespace UserDirectory.Service

open UserDirectory.Call
open UserDirectory.Store (Operation StoreError Table)
open UserDirectory.Time (Instant)

variable {ο : Type} {r : Request} {c c' : Course r} {t t' : Table} {asked : Option Transaction}

/-! ## §1. What becomes of a refusal. -/

/-- The terms of who asks nothing of the store. -/
def asksNothing : Terms Unit := ⟨fun _ _ => False, fun _ _ _ => True, fun _ _ _ => ()⟩

/-- The terms of who may ask anything. -/
def asksAnything : Terms Unit := ⟨fun _ _ => True, fun _ _ _ => True, fun _ _ _ => ()⟩

/-- A stage from which on a call asks nothing of the store until it takes its next message. -/
def Silent (stage : Stage r.method.Response r.method.Progress r.method.Result) : Prop :=
  (Course.going stage [] : Course r).Abides asksNothing (fun _ _ => True) ()

/-- The requests that a call has not taken. -/
def Course.left : Course r → List (Arrival r.method.Item)
  | .going _ rest => rest
  | _ => []

/-- A step from a silent stage asks nothing; the stage stays silent, or a message has been taken, or the
call is over. -/
theorem Silent.step {stage : Stage r.method.Response r.method.Progress r.method.Result}
    {rest : List (Arrival r.method.Item)} (h : Silent stage)
    (hs : (Course.going stage rest).Step t asked t' c') :
    asked = none ∧ match c' with
      | .going stage' rest' => (rest' = rest ∧ Silent stage') ∨ rest'.length < rest.length
      | _ => True := by
  cases hs with
  | handle rest hp =>
    obtain ⟨rfl, _, hp'⟩ | ⟨op, now, _, _, hop, _⟩ := Program.Abides.step h hp
    · exact ⟨rfl, .inl ⟨rfl, hp'⟩⟩
    · exact hop.elim
  | close rest hp =>
    obtain ⟨rfl, _, hp'⟩ | ⟨op, now, _, _, hop, _⟩ := Program.Abides.step h hp
    · exact ⟨rfl, .inl ⟨rfl, hp'⟩⟩
    · exact hop.elim
  | take kept x delay rest => exact ⟨rfl, .inr (by simp)⟩
  | breakOff kept cause delay rest => exact ⟨rfl, trivial⟩
  | exhaust kept hsilent => exact ⟨rfl, .inl ⟨rfl, h⟩⟩
  | answered kept rest => exact ⟨rfl, .inl ⟨rfl, h kept rfl⟩⟩
  | failed cause rest => exact ⟨rfl, trivial⟩
  | finish result rest => exact ⟨rfl, trivial⟩
  | cut stage rest => exact ⟨rfl, trivial⟩
  | drop stage rest => exact ⟨rfl, trivial⟩

/-- Nothing is asked of the store for a user who has been refused. -/
theorem Course.Refused.silent {u : User} (h : c.Refused u) :
    ∃ stage rest, c = .going stage rest ∧ Silent stage := by
  rcases c with ⟨⟨kept⟩ | ⟨p⟩ | ⟨p⟩, rest⟩ | result | _
  · cases r <;> exact h.elim
  · refine ⟨_, rest, rfl, ?_⟩
    cases r with
    | batchAddUsers users =>
      obtain ⟨totals, rfl, _⟩ := h
      rintro kept ⟨⟩
      exact fun _ _ _ => trivial
    | syncUsers users =>
      cases h
      intro there
      cases there with
      | true => exact fun _ _ _ _ => trivial
      | false => exact nofun
    | _ => exact h.elim
  · refine ⟨_, rest, rfl, ?_⟩
    cases r with
    | addUser v =>
      cases h
      exact fun _ _ => trivial
    | _ => exact h.elim
  · cases r <;> exact h.elim
  · cases r <;> exact h.elim

/-- An action that may ask anything abides, however it ends. -/
theorem abides_asksAnything {α : Type} {Q : Unit → α → Prop} (hQ : ∀ a, Q () a) (p : Program ο α) :
    p.Abides asksAnything () Q := by
  induction p with
  | done a => exact hQ a
  | store op next ih => exact ⟨trivial, fun r _ => ih r⟩
  | send item next ih => exact ih
  | live next ih => exact ih
  | clock next ih => exact ih
  | note n next ih => exact ih
  | pause ms next ih => exact ih
  | cancel next ih => exact ih
  | claims next ih => exact ih
  | enter next ih => exact ih
  | leave failure next ih => exact ih

theorem Course.Abides.step_asksAnything {Q : Unit → r.method.Result → Prop}
    (h : c.Abides asksAnything Q ()) (hs : c.Step t asked t' c') : c'.Abides asksAnything Q () := by
  obtain ⟨_, _, h'⟩ | ⟨op, now, _, _, _, h'⟩ := h.step hs
  · exact h'
  · exact h' trivial

/-- The errors of a batch are kept, whatever comes of the users after them. -/
theorem batchItem_keeps (sentence : String) (totals : BatchTotals) (u : User)
    (h : sentence ∈ totals.errors) :
    (batchItem totals u : Action ο BatchTotals).Abides asksAnything () fun _ outcome =>
      ∀ kept, outcome = .ok kept → sentence ∈ kept.errors := by
  unfold batchItem
  rw [Action.abides_bind, Action.abides_ensureLive]
  refine ⟨?_, nofun⟩
  show Action.Abides asksAnything (Action.outcome (create u) >>= _) () _
  rw [Action.abides_bind, Action.abides_outcome]
  refine abides_asksAnything ?_ _
  rintro (e | _)
  · cases e with
    | cancelled => exact nofun
    | _ =>
      rintro kept ⟨⟩
      exact List.mem_append_left _ h
  · rintro kept ⟨⟩
    exact h

/-- What a call comes to that has refused the user it had taken as the `position`th: it has failed with
that, or it will tell so when it is done. -/
def Course.EndsRefused (position : Nat) : {r : Request} → Course r → Prop
  | .addUser _, .ended result => result = .error notFirst ∨ result = .error .cancelled
  | .batchAddUsers _, .ended (.ok (response : BatchAddUsersResponse)) =>
    batchError (.ofNat position) notFirst ∈ response.errors
  | _, _ => True

/-- Messages are taken and never put back. -/
theorem Course.Step.left_le (hs : c.Step t asked t' c') : c'.left.length ≤ c.left.length := by
  cases hs with
  | take kept x delay rest => exact Nat.le_succ _
  | breakOff kept cause delay rest => exact Nat.zero_le _
  | failed cause rest => exact Nat.zero_le _
  | finish result rest => exact Nat.zero_le _
  | cut stage rest => exact Nat.zero_le _
  | drop stage rest => exact Nat.zero_le _
  | _ => exact Nat.le_refl _

/-- A call that was silent when `rest` was left, and has asked for `own` since then: if it has taken no
message it has asked for nothing. -/
def Course.SilentSince (rest : List (Arrival r.method.Item)) (own : List Event) : Course r → Prop
  | .going stage rest' => (rest' = rest ∧ own = [] ∧ Silent stage) ∨ rest'.length < rest.length
  | _ => rest = [] → own = []

theorem Course.SilentSince.step {rest : List (Arrival r.method.Item)} {own : List Event} {i : Nat}
    (h : c.SilentSince rest own) (hs : c.Step t asked t' c') :
    c'.SilentSince rest (own ++ (asked.map fun x => ⟨x, i⟩ : Option Event).toList) := by
  rcases c with ⟨stage, rest'⟩ | result | _
  · obtain ⟨rfl, rfl, hsilent⟩ | hlt := h
    · -- it has asked for nothing so far
      obtain ⟨rfl, hnext⟩ := hsilent.step hs
      rcases c' with ⟨stage', rest''⟩ | result | _
      · obtain ⟨rfl, hsilent'⟩ | hlt := hnext
        · exact .inl ⟨rfl, rfl, hsilent'⟩
        · exact .inr hlt
      · exact fun _ => rfl
      · exact fun _ => rfl
    · -- it has gone on to other messages
      have hle := hs.left_le
      rcases c' with ⟨stage', rest''⟩ | result | _
      · exact .inr (Nat.lt_of_le_of_lt hle hlt)
      · rintro rfl
        cases hlt
      · rintro rfl
        cases hlt
  · cases hs
  · cases hs

theorem Course.SilentSince.eq_nil {rest : List (Arrival r.method.Item)} {own : List Event}
    (h : c.SilentSince rest own) (hleft : c.left = rest) : own = [] := by
  rcases c with ⟨stage, rest'⟩ | result | _
  · obtain ⟨_, hown, _⟩ | hlt := h
    · exact hown
    · rw [show rest' = rest from hleft] at hlt
      exact absurd hlt (Nat.lt_irrefl _)
  · exact h hleft.symm
  · exact h hleft.symm

/-- How a call goes on that has failed because its user was refused. -/
def Course.Fails : Course r → Prop
  | .going (.closing p) _ => p = .done (.error notFirst)
  | .going _ _ => False
  | .ended result => result = .error notFirst ∨ result = .error .cancelled
  | .dropped => True

theorem Course.Fails.step (h : c.Fails) (hs : c.Step t asked t' c') : c'.Fails := by
  cases hs with
  | close rest hp =>
    cases h
    cases hp
  | finish result rest =>
    cases h
    exact .inl rfl
  | cut stage rest => exact .inr rfl
  | drop stage rest => exact trivial
  | _ => exact h.elim

/-- The answer to a batch tells of the user who was taken as the `position`th. -/
def TellsRefusal (users : Inbound User) (position : Nat) (_ : Unit)
    (response : (Request.batchAddUsers users).method.Result) : Prop :=
  batchError (.ofNat position) notFirst ∈ BatchAddUsersResponse.errors response

/-- The refusal is among the errors from now on, and the errors are what is told at the end. -/
theorem Course.Refused.tells {users : Inbound User} {u : User} {c : Course (.batchAddUsers users)}
    (h : c.Refused u) :
    c.Abides asksAnything (TellsRefusal users (users.arrivals.length - c.left.length)) () := by
  rcases c with ⟨⟨kept⟩ | ⟨p⟩ | ⟨p⟩, rest⟩ | result | _
  · exact h.elim
  · obtain ⟨totals, rfl, hmem⟩ := h
    rintro kept ⟨⟩
    refine Awaits.of_forall (r := .batchAddUsers users)
      (J := fun (totals : BatchTotals) _ => _ ∈ totals.errors) ?_ ?_ hmem
    · intro a _ u _ totals g htotals
      exact batchItem_keeps _ totals u htotals
    · rintro totals g htotals now response ⟨⟩
      exact htotals
  · exact h.elim
  · exact h.elim
  · exact h.elim

/-! ## §2. All calls together. -/

/-- The user that an event has added. -/
def Event.added? : Event → Option User
  | ⟨⟨.add u, .ok _⟩, _⟩ => some u
  | _ => none

/-- The terms of a store without users: an admin is added or nobody, and nobody is found. -/
def noUsers : Terms Unit where
  allowed _
    | .add u => u.role = .admin
    | _ => True
  promised _
    | .count => fun found : Except StoreError Nat => found = .ok 0
    | _ => fun _ => True
  after _ _ _ := ()

theorem allows_noUsers (r : Request) : Allows noUsers r where
  reads op hop := by
    cases op with
    | add u => exact hop.elim
    | _ => exact trivial
  adds u n hcount hfirst _ _ := by
    cases hcount
    by_contra hrole
    exact hfirst ⟨rfl, hrole⟩
  logins _ _ _ _ := trivial
  merges _ _ _ _ _ _ _ _ := trivial
  replaces _ _ _ _ _ _ _ _ := trivial

/-- As long as nobody is added there is nobody. -/
theorem perform_empty (now : Instant) (op : Operation) (i : Nat)
    (h : Event.added? ⟨⟨op, (Table.perform SortedMap.empty now op).1⟩, i⟩ = none) :
    (Table.perform SortedMap.empty now op).2 = SortedMap.empty := by
  obtain hsame | ⟨u, rfl, _, _, hdone⟩ | ⟨u, old, rfl, hold, _⟩ | ⟨id, rfl, hdone⟩ :=
    Table.perform_cases SortedMap.empty now op
  · exact hsame
  · rw [hdone] at h
    cases h
  · cases hold
  · rw [hdone]
    rfl

namespace System

variable {s s' : System} {trace : List Event} {i : Nat}

/-- What each of the calls keeps by itself, all of them keep together. -/
theorem Runs.each {P : (r : Request) → Course r → Prop} (hstart : ∀ r, P r (.start r))
    (hstep : ∀ (r : Request) (c c' : Course r) (t t' : Table) (asked : Option Transaction),
      P r c → c.Step t asked t' c' → P r c')
    (h : s.Runs trace s') (hs : ∀ o ∈ s.calls, P o.request o.course) :
    ∀ o ∈ s'.calls, P o.request o.course := by
  induction h with
  | refl => exact hs
  | step hrun hstep' ih =>
    intro o ho
    cases hstep' with
    | begin r =>
      rcases List.mem_append.1 ho with ho | ho
      · exact ih o ho
      · rw [List.mem_singleton.1 ho]
        exact hstart r
    | go hi hc =>
      rcases List.mem_or_eq_of_mem_set ho with ho | rfl
      · exact ih o ho
      · have hold := ih _ (List.mem_of_getElem? hi)
        exact hstep _ _ _ _ _ _ hold hc

/-- What one of the calls keeps, knowing what it has asked for meanwhile, it keeps whatever the others
do. -/
theorem Runs.follows {P : List Event → Course r → Prop}
    (hstep : ∀ (own : List Event) (c c' : Course r) (t t' : Table) (asked : Option Transaction),
      P own c → c.Step t asked t' c' → P (own ++ (asked.map fun x => ⟨x, i⟩ : Option Event).toList) c')
    (h : s.Runs trace s') (hi : s.calls[i]? = some ⟨r, c⟩) (hc : P [] c) :
    ∃ c', s'.calls[i]? = some ⟨r, c'⟩ ∧ P (trace.filter fun e => e.caller = i) c' := by
  induction h with
  | refl => exact ⟨c, hi, hc⟩
  | @step trace s₁ s₂ event hrun hs ih =>
    obtain ⟨c₁, hi₁, hP⟩ := ih
    rw [List.filter_append]
    cases hs with
    | begin r' =>
      refine ⟨c₁, ?_, by rwa [Option.toList_none, List.filter_nil, List.append_nil]⟩
      rw [List.getElem?_append_left (List.getElem?_eq_some_iff.1 hi₁).1]
      exact hi₁
    | @go j r' c₂ c₃ asked t' hj hcj =>
      by_cases hij : j = i
      · -- it is this call that has done the step
        subst hij
        cases hi₁.symm.trans hj
        refine ⟨c₃, List.getElem?_set_self (List.getElem?_eq_some_iff.1 hj).1, ?_⟩
        have hown := hstep _ _ _ _ _ _ hP hcj
        cases asked with
        | none => exact hown
        | some x =>
          rw [Option.map_some, Option.toList_some, List.filter_cons_of_pos (by simp), List.filter_nil]
          exact hown
      · refine ⟨c₁, by rwa [List.getElem?_set_ne hij], ?_⟩
        cases asked with
        | none => rwa [Option.map_none, Option.toList_none, List.filter_nil, List.append_nil]
        | some x =>
          rw [Option.map_some, Option.toList_some, List.filter_cons_of_neg (by simpa using hij),
            List.filter_nil, List.append_nil]
          exact hP

/-- Before anybody has been added there is nobody, and every call abides by the terms of that. -/
theorem Runs.untouched (h : empty.Runs trace s) (hno : ∀ e ∈ trace, e.added? = none) :
    s.table = SortedMap.empty ∧ s.Abides (fun _ => noUsers) (fun _ _ _ _ => True) fun _ => () := by
  induction h with
  | refl => exact ⟨rfl, fun i r c hi => by cases hi⟩
  | @step trace s₁ s₂ event _ hstep ih =>
    obtain ⟨htable, hs⟩ := ih fun e he => hno e (List.mem_append_left _ he)
    obtain ⟨r, rfl, rfl⟩ | ⟨rfl, hsame, _, hs'⟩ | ⟨i, op, now, rfl, hsame, _, _, hs'⟩ := hs.step hstep
    · exact ⟨htable, hs.begin (Request.abides_of_allows (allows_noUsers r))⟩
    · exact ⟨hsame.trans htable, hs'⟩
    · have hadded := hno _ (List.mem_append_right _ (List.mem_singleton.2 rfl))
      rw [htable] at hsame hadded hs'
      refine ⟨hsame.trans (perform_empty now op i hadded), hs' ?_⟩
      -- what is promised is that nobody is found
      cases op with
      | count => rfl
      | _ => exact trivial

/-- Whoever is added first is an admin. -/
theorem Runs.first_added {u : User} (h : empty.Runs trace s)
    (hu : trace.findSome? Event.added? = some u) : u.role = .admin := by
  induction h with
  | refl => cases hu
  | @step trace s₁ s₂ event hrun hstep ih =>
    rw [List.findSome?_append] at hu
    cases hbefore : trace.findSome? Event.added? with
    | some v =>
      rw [hbefore] at hu ih
      cases hu
      exact ih rfl
    | none =>
      rw [hbefore] at hu
      obtain ⟨_, hs⟩ := hrun.untouched (List.findSome?_eq_none_iff.1 hbefore)
      obtain ⟨r, rfl, _⟩ | ⟨rfl, _⟩ | ⟨i, op, now, rfl, _, _, hallowed, _⟩ := hs.step hstep
      · cases hu
      · cases hu
      · -- the step that adds is one that the terms allow
        cases op with
        | add v =>
          cases hadd : (s₁.table.perform now (.add v)).1 with
          | ok _ =>
            rw [hadd] at hu
            cases hu
            exact hallowed
          | error e =>
            rw [hadd] at hu
            cases hu
        | _ => cases hu

/-- What a call has asked for it has asked for in a step of its own. -/
theorem Step.own {x : Transaction} (h : s.Step (some ⟨x, i⟩) s')
    (hi : s.calls[i]? = some ⟨r, c⟩) :
    ∃ c', c.Step s.table (some x) s'.table c' ∧ s'.calls[i]? = some ⟨r, c'⟩ := by
  generalize hevent : (some ⟨x, i⟩ : Option Event) = event at h
  cases h with
  | begin r' => cases hevent
  | @go j r' c₂ c₃ asked t' hj hc =>
    cases asked with
    | none => cases hevent
    | some y =>
      cases hevent
      cases hi.symm.trans hj
      exact ⟨c₃, hc, List.getElem?_set_self (List.getElem?_eq_some_iff.1 hj).1⟩

/-- What becomes of a call that has refused its user. -/
theorem Runs.ends_refused {u : User} {after : List Event} (h : s.Runs after s')
    (hi : s.calls[i]? = some ⟨r, c⟩) (hc : c.Refused u) :
    ∃ c', s'.calls[i]? = some ⟨r, c'⟩
      ∧ c'.EndsRefused (r.inbound.arrivals.length - c.left.length) := by
  cases r with
  | addUser v =>
    have hfails : c.Fails := by
      rcases c with ⟨⟨kept⟩ | ⟨p⟩ | ⟨p⟩, rest⟩ | result | _
      · exact hc.elim
      · exact hc.elim
      · exact hc
      · exact hc.elim
      · exact hc.elim
    obtain ⟨c', hi', hfails'⟩ :=
      h.follows (P := fun _ c => c.Fails) (fun _ _ _ _ _ _ hP hs => hP.step hs) hi hfails
    refine ⟨c', hi', ?_⟩
    rcases c' with ⟨stage, rest⟩ | result | _
    · exact trivial
    · exact hfails'
    · exact trivial
  | batchAddUsers users =>
    obtain ⟨c', hi', hc'⟩ := h.follows
      (P := fun _ c => c.Abides asksAnything (TellsRefusal users (users.arrivals.length - _)) ())
      (fun _ _ _ _ _ _ hP hs => hP.step_asksAnything hs) hi hc.tells
    refine ⟨c', hi', ?_⟩
    rcases c' with ⟨stage, rest⟩ | (e | response) | _
    · exact trivial
    · exact trivial
    · exact hc' response rfl
    · exact trivial
  | _ =>
    obtain ⟨c', hi', _⟩ := h.follows (P := fun _ _ => True) (fun _ _ _ _ _ _ _ _ => trivial) hi trivial
    exact ⟨c', hi', trivial⟩

/-- The first user is an admin.  Of a store that has been empty, whatever calls go on at the same time
and whichever of them are abandoned: whoever is added first is an admin.  And a call that counts the
users before that, for a user who is no admin, refuses the user: it asks nothing of the store until it
takes its next message, and it fails, or the refusal is among what it tells. -/
theorem first_user_is_admin :
    (∀ (trace : List Event) (s : System) (u : User), empty.Runs trace s →
      trace.findSome? Event.added? = some u → u.role = .admin)
    ∧ ∀ (before : List Event) (s s₁ : System) (i : Nat) (r : Request) (c : Course r) (u : User)
        (found : Except StoreError Nat),
        empty.Runs before s → (∀ e ∈ before, e.added? = none) → s.calls[i]? = some ⟨r, c⟩ →
        c.subject? = some u → u.role ≠ .admin → s.Step (some ⟨⟨.count, found⟩, i⟩) s₁ →
        ∃ c₁ : Course r, s₁.calls[i]? = some ⟨r, c₁⟩ ∧ c₁.Refused u
          ∧ ∀ (after : List Event) (s₂ : System), s₁.Runs after s₂ →
            ∃ c₂ : Course r, s₂.calls[i]? = some ⟨r, c₂⟩
              ∧ (c₂.left = c₁.left → ∀ e ∈ after, e.caller ≠ i)
              ∧ c₂.EndsRefused (r.inbound.arrivals.length - c₁.left.length) := by
  refine ⟨fun trace s u => Runs.first_added, ?_⟩
  intro before s s₁ i r c u found hrun hno hi hu hrole hstep
  -- there is nobody yet, and that is what the call has found
  obtain ⟨htable, _⟩ := hrun.untouched hno
  have hfound : found = .ok 0 := by
    obtain ⟨hnone, _⟩ | ⟨j, op, now, hevent, _⟩ := hstep.table_eq
    · cases hnone
    · rw [htable] at hevent
      cases hevent
      rfl
  subst hfound
  obtain ⟨c₁, hc₁, hi₁⟩ := hstep.own hi
  have hcareful : c.Careful (firstCare r) :=
    hrun.each (P := fun r c => c.Careful (firstCare r)) (fun r => (sound_firstCare r).start)
      (fun r _ _ _ _ _ => (sound_firstCare r).step) (fun o ho => by cases ho) _
      (List.mem_of_getElem? hi)
  have hrefused := hcareful.refused hu hrole hc₁
  refine ⟨c₁, hi₁, hrefused, ?_⟩
  intro after s₂ hafter
  obtain ⟨stage, rest, rfl, hsilent⟩ := hrefused.silent
  obtain ⟨c₂, hi₂, hsince⟩ := hafter.follows (P := fun own c => c.SilentSince rest own)
    (fun _ _ _ _ _ _ h hs => h.step hs) hi₁ (.inl ⟨rfl, rfl, hsilent⟩)
  obtain ⟨c₂', hi₂', hends⟩ := hafter.ends_refused hi₁ hrefused
  cases hi₂.symm.trans hi₂'
  refine ⟨c₂, hi₂, ?_, hends⟩
  intro hleft e he hcaller
  have hown := hsince.eq_nil hleft
  rw [List.filter_eq_nil_iff] at hown
  exact hown e he (by simpa using hcaller)

/-- A user who cannot be the first one of a store. -/
def guest : User :=
  ⟨2, "gus", .guest, none, none, none, none, [], ∅, [], none, none⟩

/-- A request to bring the guest in line. -/
def guestArrives : Request := .syncUsers (.ofArrivals [⟨.ok guest, 0⟩] false)

/-- The call of a guest comes to the count while that of an admin has only begun, and then the admin is
added. -/
theorem exists_run_guestArrives :
    ∃ (before : List Event) (s s₁ : System) (c : Course guestArrives),
      empty.Runs before s ∧ (∀ e ∈ before, e.added? = none) ∧ s.calls[0]? = some ⟨_, c⟩
      ∧ c.subject? = some guest ∧ s.Step (some ⟨⟨.count, .ok (0 : Nat)⟩, 0⟩) s₁
      ∧ ∃ trace s₂, empty.Runs trace s₂ ∧ trace.findSome? Event.added? = some firstAdmin := by
  have begun := (Runs.refl.step (.begin guestArrives)).step (.begin (.addUser firstAdmin)) (s := empty)
  have taken := begun.step (.go (i := 0) rfl (.take (r := guestArrives) () guest 0 []))
  have live := taken.step (.go (i := 0) rfl (.handle _ (.live _ true)))
  have got := live.step (.go (i := 0) rfl (.handle _ (.store (.get 2) _ .epoch)))
  have counted := got.step (.go (i := 0) rfl (.handle _ (.store .count _ .epoch)))
  have live := counted.step (.go (i := 1) rfl (.close _ (.live _ true)))
  have count := live.step (.go (i := 1) rfl (.close _ (.store .count _ .epoch)))
  have add := count.step (.go (i := 1) rfl (.close _ (.store (.add firstAdmin) _ .epoch)))
  exact ⟨_, _, _, _, got, by decide, rfl, rfl, .go (i := 0) rfl (.handle _ (.store .count _ .epoch)),
    _, _, add, rfl⟩

/-- There is such a call, which is refused, and such a first user, who is an admin. -/
theorem first_user_is_admin_guestArrives :
    (∃ (s₁ : System) (c₁ : Course guestArrives), s₁.calls[0]? = some ⟨_, c₁⟩ ∧ c₁.Refused guest)
    ∧ ∃ (trace : List Event) (s₂ : System), empty.Runs trace s₂
        ∧ trace.findSome? Event.added? = some firstAdmin ∧ firstAdmin.role = .admin := by
  obtain ⟨before, s, s₁, c, hrun, hno, hi, hu, hstep, trace, s₂, hrun₂, hadded⟩ :=
    exists_run_guestArrives
  obtain ⟨c₁, hi₁, hrefused, _⟩ := first_user_is_admin.2 before s s₁ 0 guestArrives c guest (.ok 0)
    hrun hno hi hu (by decide) hstep
  exact ⟨⟨s₁, c₁, hi₁, hrefused⟩, trace, s₂, hrun₂, hadded,
    first_user_is_admin.1 trace s₂ firstAdmin hrun₂ hadded⟩

end System

end UserDirectory.Service
