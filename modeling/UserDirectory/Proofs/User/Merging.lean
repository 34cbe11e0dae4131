import UserDirectory.User.FieldMask
/-!
# Merging

A merged user has the named fields from the patch and everything else from the stored user.  As the
number and the date of creation have no name, they always are those of the stored user.

Main statements:
  * `UserField.same_copy`: what copying one field does to each of them;
  * `User.merge_eq_ok_iff`, `User.merge_spec`: what a merged user is made of.
-/

namespace UserDirectory

namespace UserField

variable {f g : UserField} {u v w patch : User}

/-! ## §1. Fields. -/

/-- Two users have the same in a field. -/
def Same (f : UserField) (u v : User) : Prop :=
  match f with
  | role => u.role = v.role
  | username => u.username = v.username
  | email => u.email = v.email
  | phone => u.phone = v.phone
  | profile => u.profile = v.profile
  | tags => u.tags = v.tags
  | metadata => u.metadata = v.metadata
  | status => u.status = v.status
  | lastLogin => u.lastLogin = v.lastLogin
  | addresses => u.addresses = v.addresses

instance (f : UserField) (u v : User) : Decidable (f.Same u v) := by
  cases f <;> unfold Same <;> infer_instance

theorem Same.refl (f : UserField) (u : User) : f.Same u u := by
  cases f <;> rfl

theorem Same.symm (h : f.Same u v) : f.Same v u := by
  cases f <;> exact Eq.symm h

theorem Same.trans (h : f.Same u v) (h' : f.Same v w) : f.Same u w := by
  cases f <;> exact Eq.trans h h'

/-- Users are equal if all their fields are, those included that cannot be changed. -/
theorem eq_of_same (hid : u.id = v.id) (hdate : u.createDate = v.createDate)
    (h : ∀ f : UserField, f.Same u v) : u = v := by
  obtain ⟨id, username, role, status, email, phone, profile, tags, metadata, addresses, createDate,
    lastLogin⟩ := u
  cases hid
  cases hdate
  cases h .role
  cases h .username
  cases h .email
  cases h .phone
  cases h .profile
  cases h .tags
  cases h .metadata
  cases h .status
  cases h .lastLogin
  cases h .addresses
  rfl

/-- A copied field comes from the source, and every other one from the target. -/
theorem same_copy (f g : UserField) (patch u : User) :
    g.Same (f.copy patch u) (if g = f then patch else u) := by
  split
  · rename_i h
    subst h
    cases g <;> rfl
  · rename_i h
    cases f <;> cases g <;> first | exact absurd rfl h | rfl

@[simp] theorem copy_id (f : UserField) (patch u : User) : (f.copy patch u).id = u.id := by
  cases f <;> rfl

@[simp] theorem copy_createDate (f : UserField) (patch u : User) :
    (f.copy patch u).createDate = u.createDate := by
  cases f <;> rfl

/-- The fields of a list come from the source, and the others from the target. -/
theorem same_foldl_copy (fields : List UserField) (g : UserField) (patch u : User) :
    g.Same (fields.foldl (fun u f => f.copy patch u) u) (if g ∈ fields then patch else u) := by
  induction fields generalizing u with
  | nil => exact Same.refl g u
  | cons f rest ih =>
    refine (ih (f.copy patch u)).trans ?_
    by_cases hrest : g ∈ rest
    · rw [if_pos hrest, if_pos (List.mem_cons_of_mem _ hrest)]
      exact Same.refl g patch
    · rw [if_neg hrest]
      refine (same_copy f g patch u).trans ?_
      by_cases hgf : g = f
      · rw [if_pos hgf, if_pos (hgf ▸ List.mem_cons_self)]
        exact Same.refl g patch
      · rw [if_neg hgf, if_neg (by simp [hgf, hrest])]
        exact Same.refl g u

@[simp] theorem foldl_copy_id (fields : List UserField) (patch u : User) :
    (fields.foldl (fun u f => f.copy patch u) u).id = u.id := by
  induction fields generalizing u with
  | nil => rfl
  | cons f rest ih => rw [List.foldl_cons, ih, copy_id]

@[simp] theorem foldl_copy_createDate (fields : List UserField) (patch u : User) :
    (fields.foldl (fun u f => f.copy patch u) u).createDate = u.createDate := by
  induction fields generalizing u with
  | nil => rfl
  | cons f rest ih => rw [List.foldl_cons, ih, copy_createDate]

end UserField

/-! ## §2. Merged users. -/

namespace User

variable {existing patch changed : User} {mask : List String} {fields : List UserField}

/-- There is a merged user exactly if the mask means something. -/
theorem merge_eq_ok_iff :
    User.merge existing patch mask = .ok changed
      ↔ ∃ fields, maskFields mask = .ok fields
        ∧ changed = fields.foldl (fun u f => f.copy patch u) existing := by
  unfold User.merge
  cases maskFields mask with
  | error e =>
    constructor
    · intro h
      cases h
    · rintro ⟨_, h, _⟩
      cases h
  | ok fields =>
    constructor
    · intro h
      cases h
      exact ⟨fields, rfl, rfl⟩
    · rintro ⟨_, h, rfl⟩
      cases h
      rfl

/-- A merged user has the fields of the mask from the patch and all else from the stored user. -/
theorem merge_spec (hmask : maskFields mask = .ok fields)
    (h : User.merge existing patch mask = .ok changed) :
    changed.id = existing.id ∧ changed.createDate = existing.createDate
      ∧ ∀ f : UserField, f.Same changed (if f ∈ fields then patch else existing) := by
  obtain ⟨fields', hmask', rfl⟩ := merge_eq_ok_iff.1 h
  rw [hmask] at hmask'
  cases hmask'
  exact ⟨UserField.foldl_copy_id _ _ _, UserField.foldl_copy_createDate _ _ _,
    fun f => UserField.same_foldl_copy fields f patch existing⟩

end User

end UserDirectory
