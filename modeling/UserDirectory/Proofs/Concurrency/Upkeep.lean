import UserDirectory.Proofs.Concurrency.Requests
import UserDirectory.Proofs.Store.Upkeep
/-!
# What all calls together keep

No call adds a user without a number, and none replaces a user by one that was never created: what a
call writes back has its date of creation from what it has read, however old that is.  So every table
that calls can come to share is well kept, whichever of them were abandoned on the way.

Main statements:
  * `Request.abides_upkeep`: each of the nine requests abides by these terms;
  * `System.calls_keep_table`: what holds of the shared table, and how a number can come into it.
-/

namespace UserDirectory.Service

open UserDirectory.Call
open UserDirectory.Store (Operation StoreError Table)
open UserDirectory.Time (Instant)

/-! ## §1. The terms. -/

/-- What is asked: new users have a number, and users that replace others a date of creation.  What is
promised: so have those that are stored. -/
def upkeep : Terms Unit where
  allowed _
    | .add u => u.id ≠ 0
    | .update u => u.createDate.isSome
    | _ => True
  promised _
    | .get _ => fun found : Except StoreError User => ∀ u, found = .ok u → u.createDate.isSome
    | _ => fun _ => True
  after _ _ _ := ()

/-- A table in order, of users with a number and a date of creation. -/
structure WellKept (t : Table) : Prop extends t.Tidy where
  id_ne_zero : ∀ k u, t.get? k = some u → k ≠ 0
  created : ∀ k u, t.get? k = some u → u.createDate.isSome

theorem WellKept.empty : WellKept SortedMap.empty where
  toTidy := .empty
  id_ne_zero _ _ h := by cases h
  created _ _ h := by cases h

/-- Whatever is put under a number that is not zero must have been created. -/
theorem WellKept.of_insert {t t' : Table} {id : UInt32} {v : User} (h : WellKept t) (ht' : t'.Tidy)
    (hget : ∀ k u, t'.get? k = some u → t.get? k = some u ∨ (k = id ∧ u = v)) (hid : id ≠ 0)
    (hv : v.createDate.isSome) : WellKept t' where
  toTidy := ht'
  id_ne_zero k u hk := by
    obtain hold | ⟨rfl, _⟩ := hget k u hk
    · exact h.id_ne_zero k u hold
    · exact hid
  created k u hk := by
    obtain hold | ⟨_, rfl⟩ := hget k u hk
    · exact h.created k u hold
    · exact hv

/-- What is allowed keeps a table well, and a table that is well kept gives what is promised. -/
theorem WellKept.perform {t : Table} {now : Instant} {op : Operation} (h : WellKept t)
    (hop : upkeep.allowed () op) :
    WellKept (t.perform now op).2 ∧ upkeep.promised () op (t.perform now op).1 := by
  refine ⟨?_, ?_⟩
  · -- the table
    have htidy := h.toTidy.perform now op
    have hinsert : ∀ (id : UInt32) (v : User) k u, (t.insert id v).get? k = some u →
        t.get? k = some u ∨ (k = id ∧ u = v) := by
      intro id v k u hk
      rw [SortedMap.get?_insert] at hk
      split at hk
      · rename_i hid
        cases hk
        exact .inr ⟨hid, rfl⟩
      · exact .inl hk
    obtain hsame | ⟨u, rfl, _, _, hdone⟩ | ⟨u, old, rfl, hold, _, hdone⟩ | ⟨id, rfl, hdone⟩ :=
      Table.perform_cases t now op
    · rw [hsame]
      exact h
    · -- a user has been added, with a date of creation in any case
      rw [hdone] at htidy ⊢
      exact h.of_insert htidy (hinsert _ _) hop rfl
    · -- a user has been replaced, whose number was there before
      rw [hdone] at htidy ⊢
      exact h.of_insert htidy (hinsert _ _) (h.id_ne_zero _ _ hold) hop
    · -- a user has been removed
      rw [hdone] at htidy ⊢
      refine ⟨htidy, fun k u hk => ?_, fun k u hk => ?_⟩ <;> rw [SortedMap.get?_erase] at hk <;>
        split at hk
      · cases hk
      · exact h.id_ne_zero k u hk
      · cases hk
      · exact h.created k u hk
  · -- the reply: only reading is promised anything
    cases op with
    | get id =>
      intro u hu
      exact h.created id u (Table.fetch_eq_ok_iff.1 hu)
    | _ => exact trivial

/-! ## §2. The requests. -/

/-- What the requests write is allowed. -/
theorem allows_upkeep (r : Request) : Allows upkeep r where
  reads op hop := by
    cases op with
    | add u => exact hop.elim
    | update u => exact hop.elim
    | _ => exact trivial
  adds u _ _ _ hid _ := hid
  -- a login changes nothing of when the user was created
  logins id u at_ hfound := hfound u rfl
  -- no mask reaches the date of creation, and the user who was read has one
  merges q patch existing changed _ _ hfound hchanged := by
    obtain ⟨fields, hmask, _⟩ := User.merge_eq_ok_iff.1 hchanged
    show changed.createDate.isSome
    rw [(User.merge_spec hmask hchanged).2.1]
    exact hfound existing rfl
  -- a date that is not given is taken from the user who was read
  replaces users a u existing _ _ _ hfound := by
    show (u.createDate.or existing.createDate).isSome
    rw [Option.isSome_or, hfound existing rfl, Bool.or_true]

/-- Each of the nine requests abides by the terms. -/
theorem Request.abides_upkeep (r : Request) :
    (Course.start r).Abides upkeep (fun _ _ => True) () :=
  Request.abides_of_allows (allows_upkeep r)

/-! ## §3. All calls together. -/

namespace System

variable {s s' : System} {trace : List Event} {k : UInt32}

/-- The table that calls share stays well kept. -/
theorem Reachable.wellKept (h : s.Reachable) : WellKept s.table := by
  obtain ⟨trace, hrun⟩ := h
  refine (hrun.keeps ?_ WellKept.empty ?_ fun r _ => r.abides_upkeep).1
  · intro t now op ht hop
    exact ht.perform hop
  · intro i r c hi
    cases hi

/-- A step that asks for nothing leaves the table alone, and any other performs what it asks for. -/
theorem Step.table_eq {event : Option Event} (h : s.Step event s') :
    (event = none ∧ s'.table = s.table)
    ∨ ∃ i op now, event = some ⟨⟨op, (s.table.perform now op).1⟩, i⟩
        ∧ s'.table = (s.table.perform now op).2 := by
  cases h with
  | begin r => exact .inl ⟨rfl, rfl⟩
  | go hi hc =>
    obtain ⟨rfl, rfl⟩ | ⟨op, now, rfl, rfl⟩ := hc.table_eq
    · exact .inl ⟨rfl, rfl⟩
    · exact .inr ⟨_, op, now, rfl, rfl⟩

/-- A number that comes into the table comes at the step that adds its user. -/
theorem Runs.introduces (h : s.Runs trace s') (hno : s.table.get? k = none)
    (hyes : s'.table.get? k ≠ none) :
    ∃ before s₁ i u s₂, s.Runs before s₁ ∧ s₁.Step (some ⟨⟨.add u, .ok ()⟩, i⟩) s₂ ∧ u.id = k
      ∧ s₁.table.get? k = none ∧ s₂.table.get? k ≠ none := by
  induction h with
  | refl => exact absurd hno hyes
  | @step before s₁ s₂ event hrun hstep ih =>
    -- it is this step or an earlier one
    by_cases hmid : s₁.table.get? k = none
    · obtain ⟨_, htable⟩ | ⟨i, op, now, rfl, htable⟩ := hstep.table_eq
      · rw [htable] at hyes
        exact absurd hmid hyes
      · have hnew := hyes
        rw [htable] at hnew
        obtain ⟨u, rfl, hu, hok⟩ := Table.get?_perform_of_none hmid hnew
        -- what is known of the addition is how it ended
        rw [show s₁.table.perform now (.add u) = (.ok (), (s₁.table.perform now (.add u)).2)
          from Prod.ext hok rfl] at hstep
        exact ⟨before, s₁, i, u, s₂, hrun, hstep, hu, hmid, hyes⟩
    · exact ih hmid

/-- Whatever calls go on at the same time, and whichever of them are abandoned: each user stands under
their own number, which is not zero, no two have one name, and each was created at some time.  An
operation that fails changes nothing, and a number only comes with the user who is added under it. -/
theorem calls_keep_table :
    (∀ s : System, s.Reachable →
      (∀ k u, s.table.get? k = some u → u.id = k ∧ k ≠ 0 ∧ u.createDate.isSome)
      ∧ ∀ k l u v, s.table.get? k = some u → s.table.get? l = some v → u.username = v.username →
          k = l)
    ∧ (∀ (t : Table) (now : Instant) (op : Operation) (e : StoreError),
        (t.perform now op).1 = .error e → (t.perform now op).2 = t)
    ∧ (∀ (t : Table) (now : Instant) (op : Operation) (k : UInt32), t.get? k = none →
        (t.perform now op).2.get? k ≠ none →
        ∃ u, op = .add u ∧ u.id = k ∧ (t.perform now (.add u)).1 = .ok ())
    ∧ ∀ (s s' : System) (trace : List Event) (k : UInt32), s.Runs trace s' →
        s.table.get? k = none → s'.table.get? k ≠ none →
        ∃ before s₁ i u s₂, s.Runs before s₁ ∧ s₁.Step (some ⟨⟨.add u, .ok ()⟩, i⟩) s₂ ∧ u.id = k
          ∧ s₁.table.get? k = none ∧ s₂.table.get? k ≠ none := by
  refine ⟨fun s h => ?_, fun _ _ _ _ => Table.perform_error,
    fun _ _ _ _ => Table.get?_perform_of_none, fun _ _ _ _ => Runs.introduces⟩
  have hs := h.wellKept
  exact ⟨fun k u hk => ⟨hs.id_eq k u hk, hs.id_ne_zero k u hk, hs.created k u hk⟩, hs.name_inj⟩

/-- An admin who can be the first user of a store. -/
def firstAdmin : User :=
  ⟨1, "ada", .admin, none, none, none, none, [], ∅, [], none, none⟩

/-- A store to which the first user has just been added, while another call waits. -/
theorem exists_reachable_firstAdmin :
    ∃ s : System, s.Reachable ∧ s.calls.length = 2
      ∧ s.table.get? 1 = some (Store.withDefaults firstAdmin .epoch) := by
  have begun : Runs .empty [] ⟨.empty, [.start (.addUser firstAdmin), .start (.addUser firstAdmin)]⟩ :=
    (Runs.refl.step (.begin (.addUser firstAdmin))).step (.begin (.addUser firstAdmin))
  have live := begun.step (.go (i := 0) rfl (.close _ (.live _ true)))
  have count := live.step (.go (i := 0) rfl (.close _ (.store .count _ .epoch)))
  have add := count.step (.go (i := 0) rfl (.close _ (.store (.add firstAdmin) _ .epoch)))
  exact ⟨_, ⟨_, add⟩, rfl, rfl⟩

/-- There is a user to whom this applies. -/
theorem calls_keep_table_firstAdmin :
    ∃ s : System, s.Reachable ∧ ∃ u, s.table.get? 1 = some u ∧ u.id = 1 ∧ u.createDate.isSome := by
  obtain ⟨s, hs, _, hget⟩ := exists_reachable_firstAdmin
  have huser := (calls_keep_table.1 s hs).1 1 _ hget
  exact ⟨s, hs, _, hget, huser.1, huser.2.2⟩

end System

end UserDirectory.Service
