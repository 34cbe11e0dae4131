import UserDirectory.Proofs.Concurrency.Upkeep
/-!
# What stored users never lack, and how they can come to

A user who is added has a name, because it is looked at before, and a status, because the store gives
one to whoever has none.  What is written later is looked at no more: an update whose mask reaches a
field copies what the patch has there, and a user brought in line replaces the stored one as it is.  So
a stored user can lose their name or their status to such a request, and only to such a request.

The argument is about one field and one number at a time.  If no request brings a user of that number
who lacks the field, then nothing is ever written under the number that lacks it.

Main statements:
  * `UserField.isFilled_congr`, `isFilled_withDefaults`: what makes a field filled;
  * `FilledAt.perform`, `allows_filling`: a step of the store, and what the requests write;
  * `System.stored_users_filled`: all calls together;
  * `System.update_empties_username`: how a name is lost.
-/

namespace UserDirectory

/-- Whether a user has what every stored user should have in a field: a name that is not empty, and a
status. -/
def UserField.IsFilled (f : UserField) (u : User) : Prop :=
  match f with
  | .username => u.username ≠ ""
  | .status => u.status.isSome
  | _ => True

instance (f : UserField) (u : User) : Decidable (f.IsFilled u) := by
  cases f <;> unfold UserField.IsFilled <;> infer_instance

/-- Users who have the same in a field both lack it or both do not. -/
theorem UserField.isFilled_congr {f : UserField} {u v : User} (h : f.Same u v) :
    f.IsFilled u ↔ f.IsFilled v := by
  cases f with
  | username =>
    show u.username ≠ "" ↔ v.username ≠ ""
    rw [show u.username = v.username from h]
  | status =>
    show u.status.isSome ↔ v.status.isSome
    rw [show u.status = v.status from h]
  | _ => exact Iff.rfl

end UserDirectory

namespace UserDirectory.Service

open UserDirectory.Call
open UserDirectory.Store (Operation StoreError Table withDefaults)
open UserDirectory.Time (Instant)

variable {f : UserField} {k : UInt32} {t : Table} {u : User}

/-- A new user with a name is stored with all there should be. -/
theorem isFilled_withDefaults (hname : u.username ≠ "") (now : Instant) :
    f.IsFilled (withDefaults u now) := by
  cases f with
  | username => exact hname
  | status => rfl
  | _ => trivial

/-! ## §1. The terms. -/

/-- Whether a request may leave the user of a number without a field: it updates this field from a patch
that lacks it, or brings in line a user who lacks it. -/
def Request.Empties (f : UserField) (k : UInt32) : Request → Prop
  | .updateUser q => ∃ patch fields, q.user = some patch ∧ patch.id = k ∧ ¬ f.IsFilled patch
      ∧ maskFields q.updateMask = .ok fields ∧ f ∈ fields
  | .syncUsers users => ∃ a ∈ users.arrivals, ∃ u : User, a.content = .ok u ∧ u.id = k
      ∧ ¬ f.IsFilled u
  | _ => False

/-- What is asked: a new user has a name, and nobody with the number is replaced by a user who lacks the
field.  What is promised: who is read has the number that was asked for, and does not lack the field if
it is this number. -/
def filling (f : UserField) (k : UInt32) : Terms Unit where
  allowed _
    | .add u => u.username ≠ ""
    | .update u => u.id = k → f.IsFilled u
    | _ => True
  promised _
    | .get id => fun found : Except StoreError User =>
      ∀ u, found = .ok u → u.id = id ∧ (id = k → f.IsFilled u)
    | _ => fun _ => True
  after _ _ _ := ()

/-- A table in order, where the user of a number does not lack a field. -/
structure FilledAt (f : UserField) (k : UInt32) (t : Table) : Prop extends t.Tidy where
  filled : ∀ u, t.get? k = some u → f.IsFilled u

theorem FilledAt.empty : FilledAt f k SortedMap.empty where
  toTidy := .empty
  filled _ h := by cases h

/-- To put a user who does not lack the field under their number, or any other one, does no harm. -/
theorem FilledAt.of_insert {id : UInt32} (h : FilledAt f k t) (htidy : Table.Tidy (t.insert id u))
    (hu : id = k → f.IsFilled u) : FilledAt f k (t.insert id u) where
  toTidy := htidy
  filled v hv := by
    rw [SortedMap.get?_insert] at hv
    split at hv
    · rename_i hk
      cases hv
      exact hu hk.symm
    · exact h.filled v hv

/-- What is allowed does no harm, and what is promised is given. -/
theorem FilledAt.perform {now : Instant} {op : Operation} (h : FilledAt f k t)
    (hop : (filling f k).allowed () op) :
    FilledAt f k (t.perform now op).2 ∧ (filling f k).promised () op (t.perform now op).1 := by
  refine ⟨?_, ?_⟩
  · -- the table
    have htidy := h.toTidy.perform now op
    obtain hsame | ⟨u, rfl, _, _, hdone⟩ | ⟨u, old, rfl, _, _, hdone⟩ | ⟨id, rfl, hdone⟩ :=
      Table.perform_cases t now op
    · rw [hsame]
      exact h
    · -- a user has been added, with a name and with a status in any case
      rw [hdone] at htidy ⊢
      exact h.of_insert htidy fun _ => isFilled_withDefaults hop now
    · -- a user has been replaced, by one who does not lack the field if it matters
      rw [hdone] at htidy ⊢
      exact h.of_insert htidy hop
    · -- a user has been removed
      rw [hdone] at htidy ⊢
      refine ⟨htidy, fun v hv => ?_⟩
      rw [SortedMap.get?_erase] at hv
      split at hv
      · cases hv
      · exact h.filled v hv
  · -- the reply: only reading is promised anything
    cases op with
    | get id =>
      intro u hu
      have hget : t.get? id = some u := Table.fetch_eq_ok_iff.1 hu
      refine ⟨h.id_eq id u hget, ?_⟩
      intro hk
      rw [hk] at hget
      exact h.filled u hget
    | _ => exact trivial

/-! ## §2. The requests. -/

/-- What a request writes is allowed, unless the request brings a user who lacks the field. -/
theorem allows_filling {r : Request} (hr : ¬ r.Empties f k) : Allows (filling f k) r where
  reads op hop := by
    cases op with
    | add u => exact hop.elim
    | update u => exact hop.elim
    | _ => exact trivial
  adds u _ _ _ _ hname := hname
  -- a login reaches neither the name nor the status
  logins id u at_ hfound := by
    intro hk
    obtain ⟨hid, hfilled⟩ := hfound u rfl
    have hstored : f.IsFilled u := hfilled (hid.symm.trans hk)
    cases f <;> exact hstored
  merges q patch existing changed hq hpatch hfound hchanged := by
    subst hq
    intro hk
    obtain ⟨hid, hfilled⟩ := hfound existing rfl
    obtain ⟨fields, hmask, _⟩ := User.merge_eq_ok_iff.1 hchanged
    obtain ⟨hsameId, _, hsame⟩ := User.merge_spec hmask hchanged
    have hnumber : patch.id = k := by rw [← hid, ← hsameId, hk]
    have hcopied := hsame f
    by_cases hf : f ∈ fields
    · -- the field comes from the patch, which would be the request's fault
      rw [if_pos hf] at hcopied
      rw [UserField.isFilled_congr hcopied]
      by_contra hlacks
      exact hr ⟨patch, fields, hpatch, hnumber, hlacks, hmask, hf⟩
    · -- the field comes from the user who was read
      rw [if_neg hf] at hcopied
      exact (UserField.isFilled_congr hcopied).2 (hfilled hnumber)
  replaces users a u existing hq ha hu _ := by
    subst hq
    intro hk
    have hsame : f.IsFilled (keepCreation u existing) ↔ f.IsFilled u := by
      cases f <;> exact Iff.rfl
    rw [hsame]
    by_contra hlacks
    exact hr ⟨a, ha, u, hu, hk, hlacks⟩

/-! ## §3. All calls together. -/

namespace System

variable {s : System}

/-- A stored user lacks a field only if a request about their number brought a user who lacks it. -/
theorem Reachable.isFilled (h : s.Reachable) (hget : s.table.get? k = some u) (f : UserField) :
    f.IsFilled u ∨ ∃ r ∈ s.requests, r.Empties f k := by
  by_cases hr : ∃ r ∈ s.requests, r.Empties f k
  · exact .inr hr
  · obtain ⟨trace, hrun⟩ := h
    refine .inl ((hrun.keeps (T := filling f k) (I := FilledAt f k) ?_ FilledAt.empty ?_ ?_).1.filled u hget)
    · intro t now op ht hop
      exact ht.perform hop
    · intro i r c hi
      cases hi
    · intro r hmem
      exact Request.abides_of_allows (allows_filling fun hempties => hr ⟨r, hmem, hempties⟩)

/-- Whatever calls go on at the same time, and whichever of them are abandoned: a stored user has a name
and a status, unless an update or a user brought in line came without it for this very number. -/
theorem stored_users_filled (h : s.Reachable) (hget : s.table.get? k = some u) :
    (u.username ≠ "" ∨ ∃ r ∈ s.requests, r.Empties .username k)
      ∧ (u.status.isSome ∨ ∃ r ∈ s.requests, r.Empties .status k) :=
  ⟨h.isFilled hget .username, h.isFilled hget .status⟩

/-- Gives the first user another name. -/
def renameFirst (name : String) : UpdateUserRequest :=
  ⟨some { firstAdmin with username := name }, ["username"]⟩

/-- A store whose first user has been given another name, whatever that is. -/
theorem exists_reachable_renamed (name : String) :
    ∃ s : System, s.Reachable ∧ s.requests = [.addUser firstAdmin, .updateUser (renameFirst name)]
      ∧ s.table.get? 1 = some { withDefaults firstAdmin .epoch with username := name } := by
  have begun : Runs .empty []
      ⟨.empty, [.start (.addUser firstAdmin), .start (.updateUser (renameFirst name))]⟩ :=
    (Runs.refl.step (.begin (.addUser firstAdmin))).step (.begin (.updateUser (renameFirst name)))
  have live := begun.step (.go (i := 0) rfl (.close _ (.live _ true)))
  have count := live.step (.go (i := 0) rfl (.close _ (.store .count _ .epoch)))
  have add := count.step (.go (i := 0) rfl (.close _ (.store (.add firstAdmin) _ .epoch)))
  have live' := add.step (.go (i := 1) rfl (.close _ (.live _ true)))
  have get := live'.step (.go (i := 1) rfl (.close _ (.store (.get 1) _ .epoch)))
  have live'' := get.step (.go (i := 1) rfl (.close _ (.live _ true)))
  have update := live''.step (.go (i := 1) rfl (.close _ (.store (.update _) _ .epoch)))
  exact ⟨_, ⟨_, update⟩, rfl, rfl⟩

/-- A new name that is not empty leaves nothing empty, though the patch has no status. -/
theorem stored_users_filled_renamed :
    ∃ s : System, s.Reachable ∧ ∃ u, s.table.get? 1 = some u ∧ u.username ≠ "" ∧ u.status.isSome := by
  obtain ⟨s, hs, hrequests, hget⟩ := exists_reachable_renamed "eve"
  have hnone : ∀ f, ¬ ∃ r ∈ s.requests, r.Empties f 1 := by
    rintro f ⟨r, hr, hempties⟩
    rw [hrequests] at hr
    rcases List.mem_cons.1 hr with rfl | hr
    · exact hempties
    · rw [List.mem_singleton.1 hr] at hempties
      obtain ⟨patch, fields, hpatch, _, hlacks, hmask, hf⟩ := hempties
      -- the mask only reaches the name, and the patch has one
      cases (rfl : maskFields (renameFirst "eve").updateMask = .ok [.username]).symm.trans hmask
      obtain rfl := List.mem_singleton.1 hf
      cases hpatch
      exact hlacks (by decide)
  obtain ⟨hname, hstatus⟩ := stored_users_filled hs hget
  exact ⟨s, hs, _, hget, hname.resolve_right (hnone .username),
    hstatus.resolve_right (hnone .status)⟩

/-- Not every user that can come to be stored has a name: an update can take it away. -/
theorem update_empties_username :
    ¬ ∀ s : System, s.Reachable → ∀ k u, s.table.get? k = some u →
        u.username ≠ "" ∧ u.status.isSome := by
  intro h
  obtain ⟨s, hs, _, hget⟩ := exists_reachable_renamed ""
  exact (h s hs 1 _ hget).1 rfl

end System

end UserDirectory.Service
