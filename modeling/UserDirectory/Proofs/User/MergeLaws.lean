import UserDirectory.Proofs.Errors
import UserDirectory.Proofs.User.Merging
import UserDirectory.Service.Single
/-!
# Laws of merging

A mask is a list of any texts.  Ten of them are names of fields; a mask with any other text is refused
because of the first of these, and no user comes of it.  Else what comes of a merge is settled by which
fields are named, and from that the laws follow.

Main statements:
  * `UserField.ofPaths_eq_ok_iff`, `UserField.ofPaths_eq_error_iff`: what a list of texts means;
  * `User.merge_eq_ok_iff_same`: a merged user, field by field;
  * `User.merge_congr`, `User.merge_merged`, `User.merge_comm`: which merges come to the same;
  * `Service.merging_touches_named`: when a merge is refused, and else what comes of it.
-/

namespace UserDirectory

namespace UserField

variable {f : UserField} {s : String} {paths : List String} {fields : List UserField} {e : MaskError}

/-! ## §1. Texts in a mask. -/

/-- The texts that mean a field. -/
def words : List String :=
  ["role", "username", "email", "phone", "profile", "tags", "metadata", "status", "last_login",
   "addresses"]

theorem mem_words_iff : s ∈ words ↔ ∃ f : UserField, f.path = s := by
  constructor
  · intro h
    obtain ⟨f, _, hf⟩ := List.mem_map.1 (show s ∈ all.map path from h)
    exact ⟨f, hf⟩
  · rintro ⟨f, rfl⟩
    cases f <;> decide

/-- What is wrong with a text that means no field. -/
def refusal (s : String) : MaskError := if s = "id" then .identity else .unknownPath s

theorem message_refusal (s : String) : (refusal s).message
    = if s = "id" then "cannot update id field" else "invalid field path: " ++ s := by
  unfold refusal
  split <;> rfl

theorem ofPath_of_not_mem_words (h : s ∉ words) : ofPath s = .error (refusal s) := by
  unfold ofPath refusal
  split
  · rfl
  · cases hfind : all.find? fun f => f.path = s with
    | none => rfl
    | some f =>
      have hpath : f.path = s := by simpa using List.find?_some hfind
      exact absurd (mem_words_iff.2 ⟨f, hpath⟩) h

theorem ofPath_eq_ok_iff : ofPath s = .ok f ↔ f.path = s := by
  constructor
  · intro h
    by_cases hs : s ∈ words
    · obtain ⟨g, rfl⟩ := mem_words_iff.1 hs
      rw [ofPath_path] at h
      cases h
      rfl
    · rw [ofPath_of_not_mem_words hs] at h
      cases h
  · rintro rfl
    exact ofPath_path f

/-- A list of texts means the fields of which these are the names. -/
theorem ofPaths_eq_ok_iff : ofPaths paths = .ok fields ↔ fields.map path = paths := by
  induction paths generalizing fields with
  | nil =>
    rw [List.map_eq_nil_iff]
    exact ⟨fun h => (Except.ok.inj h).symm, fun h => congrArg Except.ok h.symm⟩
  | cons s more ih =>
    show (do let f ← ofPath s; let fs ← ofPaths more; pure (f :: fs)) = _ ↔ _
    constructor
    · intro h
      cases hs : ofPath s with
      | error e =>
        rw [hs] at h
        cases h
      | ok f =>
        cases hmore : ofPaths more with
        | error e =>
          rw [hs, hmore] at h
          cases h
        | ok fs =>
          rw [hs, hmore] at h
          cases h
          rw [List.map_cons, ofPath_eq_ok_iff.1 hs, ih.1 hmore]
    · intro h
      obtain ⟨f, fs, rfl, hf, hfs⟩ := List.map_eq_cons_iff.1 h
      rw [ofPath_eq_ok_iff.2 hf, ih.2 hfs]
      rfl

/-- A list of texts is refused because of the first one that means no field. -/
theorem ofPaths_eq_error_iff : ofPaths paths = .error e ↔
    ∃ before s after, paths = before ++ s :: after ∧ (∀ w ∈ before, w ∈ words) ∧ s ∉ words
      ∧ e = refusal s := by
  induction paths with
  | nil =>
    constructor
    · intro h
      cases h
    · rintro ⟨before, s, after, h, _⟩
      exact absurd h.symm (List.append_ne_nil_of_right_ne_nil _ (List.cons_ne_nil _ _))
  | cons s more ih =>
    show (do let f ← ofPath s; let fs ← ofPaths more; pure (f :: fs)) = _ ↔ _
    by_cases hs : s ∈ words
    · obtain ⟨f, hf⟩ := mem_words_iff.1 hs
      have hmore : (do let f ← ofPath s; let fs ← ofPaths more; pure (f :: fs)) = .error e
          ↔ ofPaths more = .error e := by
        rw [ofPath_eq_ok_iff.2 hf]
        cases ofPaths more with
        | error e' => exact Iff.rfl
        | ok fs => exact ⟨nofun, nofun⟩
      rw [hmore, ih]
      constructor
      · rintro ⟨before, s', after, rfl, hbefore, hs'⟩
        exact ⟨s :: before, s', after, rfl, List.forall_mem_cons.2 ⟨hs, hbefore⟩, hs'⟩
      · rintro ⟨before, s', after, hsplit, hbefore, hs'⟩
        cases before with
        | nil =>
          cases hsplit
          exact absurd hs hs'.1
        | cons first before =>
          cases hsplit
          exact ⟨before, s', after, rfl, (List.forall_mem_cons.1 hbefore).2, hs'⟩
    · rw [ofPath_of_not_mem_words hs]
      constructor
      · intro h
        cases h
        exact ⟨[], s, more, rfl, nofun, hs, rfl⟩
      · rintro ⟨before, s', after, hsplit, hbefore, _, rfl⟩
        cases before with
        | nil =>
          cases hsplit
          rfl
        | cons first before =>
          cases hsplit
          exact absurd (hbefore s List.mem_cons_self) hs

/-- A mask is about a field: it names the field, or nothing at all. -/
def NamedBy (f : UserField) (mask : List String) : Prop := mask = [] ∨ f.path ∈ mask

instance (f : UserField) (mask : List String) : Decidable (f.NamedBy mask) := by
  unfold NamedBy
  infer_instance

theorem mem_of_maskFields {mask : List String} (h : maskFields mask = .ok fields) :
    f ∈ fields ↔ f.NamedBy mask := by
  unfold maskFields at h
  cases mask with
  | nil =>
    cases h
    exact ⟨fun _ => .inl rfl, fun _ => by cases f <;> decide⟩
  | cons s more =>
    have hpaths : fields.map path = s :: more := ofPaths_eq_ok_iff.1 h
    unfold NamedBy
    rw [← hpaths, List.mem_map]
    constructor
    · exact fun hf => .inr ⟨f, hf, rfl⟩
    · rintro (hnone | ⟨g, hg, hpath⟩)
      · rw [hnone] at hpaths
        cases hpaths
      · -- no two fields have one name
        have hok := ofPath_path f
        rw [← hpath, ofPath_path] at hok
        cases hok
        exact hg

end UserField

/-- A mask means something exactly if all its texts mean a field. -/
theorem exists_maskFields_iff {mask : List String} :
    (∃ fields, maskFields mask = .ok fields) ↔ ∀ s ∈ mask, s ∈ UserField.words := by
  unfold maskFields
  cases mask with
  | nil => exact ⟨fun _ => nofun, fun _ => ⟨_, rfl⟩⟩
  | cons s more =>
    show (∃ fields, UserField.ofPaths (s :: more) = .ok fields) ↔ _
    constructor
    · rintro ⟨fields, h⟩ w hw
      rw [← UserField.ofPaths_eq_ok_iff.1 h] at hw
      obtain ⟨f, _, hf⟩ := List.mem_map.1 hw
      exact UserField.mem_words_iff.2 ⟨f, hf⟩
    · intro h
      cases hpaths : UserField.ofPaths (s :: more) with
      | ok fields => exact ⟨fields, rfl⟩
      | error e =>
        obtain ⟨before, w, after, hsplit, _, hw, _⟩ := UserField.ofPaths_eq_error_iff.1 hpaths
        exact absurd (h w (hsplit ▸ List.mem_append_right _ List.mem_cons_self)) hw

namespace User

/-! ## §2. What comes of a merge. -/

variable {existing patch patch' u : User} {mask mask' : List String} {e : MaskError}

/-- A merge is refused because of the first text in the mask that means no field. -/
theorem merge_eq_error_iff : User.merge existing patch mask = .error e ↔
    ∃ before s after, mask = before ++ s :: after ∧ (∀ w ∈ before, w ∈ UserField.words)
      ∧ s ∉ UserField.words ∧ e = UserField.refusal s := by
  rw [← UserField.ofPaths_eq_error_iff]
  unfold User.merge maskFields
  cases mask with
  | nil => exact ⟨nofun, nofun⟩
  | cons s more =>
    show (UserField.ofPaths (s :: more) >>= _) = _ ↔ _
    cases UserField.ofPaths (s :: more) with
    | error e' =>
      constructor <;>
        · intro h
          cases h
          rfl
    | ok fields => exact ⟨nofun, nofun⟩

theorem exists_merge_iff :
    (∃ u, User.merge existing patch mask = .ok u) ↔ ∀ s ∈ mask, s ∈ UserField.words := by
  rw [← exists_maskFields_iff]
  constructor
  · rintro ⟨u, h⟩
    obtain ⟨fields, hmask, _⟩ := merge_eq_ok_iff.1 h
    exact ⟨fields, hmask⟩
  · rintro ⟨fields, hmask⟩
    exact ⟨_, merge_eq_ok_iff.2 ⟨fields, hmask, rfl⟩⟩

theorem exists_merge_error_iff :
    (∃ e, User.merge existing patch mask = .error e) ↔ ∃ s ∈ mask, s ∉ UserField.words := by
  constructor
  · rintro ⟨e, h⟩
    obtain ⟨before, s, after, rfl, _, hs, _⟩ := merge_eq_error_iff.1 h
    exact ⟨s, List.mem_append_right _ List.mem_cons_self, hs⟩
  · rintro ⟨s, hmem, hs⟩
    cases h : User.merge existing patch mask with
    | error e => exact ⟨e, rfl⟩
    | ok u => exact absurd (exists_merge_iff.1 ⟨u, h⟩ s hmem) hs

/-- A merged user has the fields that the mask is about from the patch and all else from the stored user. -/
theorem merge_eq_ok_iff_same : User.merge existing patch mask = .ok u ↔
    (∀ s ∈ mask, s ∈ UserField.words) ∧ u.id = existing.id ∧ u.createDate = existing.createDate
      ∧ ∀ f : UserField, f.Same u (if f.NamedBy mask then patch else existing) := by
  rw [← exists_maskFields_iff]
  constructor
  · intro h
    obtain ⟨fields, hmask, _⟩ := merge_eq_ok_iff.1 h
    obtain ⟨hid, hdate, hfields⟩ := merge_spec hmask h
    simp only [UserField.mem_of_maskFields hmask] at hfields
    exact ⟨⟨fields, hmask⟩, hid, hdate, hfields⟩
  · rintro ⟨⟨fields, hmask⟩, hid, hdate, hfields⟩
    refine merge_eq_ok_iff.2 ⟨fields, hmask, UserField.eq_of_same ?_ ?_ fun f => ?_⟩
    · rw [UserField.foldl_copy_id, hid]
    · rw [UserField.foldl_copy_createDate, hdate]
    · have hfold := UserField.same_foldl_copy fields f patch existing
      simp only [UserField.mem_of_maskFields hmask] at hfold
      exact (hfields f).trans hfold.symm

/-! ## §3. Laws. -/

/-- Masks with the same texts come to the same. -/
theorem merge_congr (h : ∀ s, s ∈ mask ↔ s ∈ mask') :
    User.merge existing patch mask = .ok u ↔ User.merge existing patch mask' = .ok u := by
  have hnone : mask = [] ↔ mask' = [] := by
    simp only [List.eq_nil_iff_forall_not_mem, h]
  have hnamed : ∀ f : UserField, f.NamedBy mask ↔ f.NamedBy mask' := fun f =>
    or_congr hnone (h f.path)
  rw [merge_eq_ok_iff_same, merge_eq_ok_iff_same]
  simp only [h, hnamed]

/-- To merge once more changes nothing. -/
theorem merge_merged (h : User.merge existing patch mask = .ok u) : User.merge u patch mask = .ok u := by
  obtain ⟨hwords, _, _, hfields⟩ := merge_eq_ok_iff_same.1 h
  refine merge_eq_ok_iff_same.2 ⟨hwords, rfl, rfl, fun f => ?_⟩
  have hf := hfields f
  split
  · rename_i hnamed
    rwa [if_pos hnamed] at hf
  · exact UserField.Same.refl f u

/-- What comes of two merges one after another: each field is from the second patch if the second mask is
about it, else from the first if the first is, and else from the stored user. -/
theorem merge_merge_iff :
    (User.merge existing patch mask >>= fun between => User.merge between patch' mask') = .ok u
      ↔ (∀ s ∈ mask, s ∈ UserField.words) ∧ (∀ s ∈ mask', s ∈ UserField.words) ∧ u.id = existing.id
        ∧ u.createDate = existing.createDate
        ∧ ∀ f : UserField, f.Same u
            (if f.NamedBy mask' then patch' else if f.NamedBy mask then patch else existing) := by
  rw [bind_eq_ok]
  constructor
  · rintro ⟨between, hfirst, hsecond⟩
    obtain ⟨hwords, hid, hdate, hfields⟩ := merge_eq_ok_iff_same.1 hfirst
    obtain ⟨hwords', hid', hdate', hfields'⟩ := merge_eq_ok_iff_same.1 hsecond
    refine ⟨hwords, hwords', hid'.trans hid, hdate'.trans hdate, fun f => ?_⟩
    have hf := hfields' f
    split
    · rename_i hnamed
      rwa [if_pos hnamed] at hf
    · rename_i hnamed
      rw [if_neg hnamed] at hf
      exact hf.trans (hfields f)
  · rintro ⟨hwords, hwords', hid, hdate, hfields⟩
    obtain ⟨between, hfirst⟩ := exists_merge_iff.2 hwords
    obtain ⟨_, hid', hdate', hfields'⟩ := merge_eq_ok_iff_same.1 hfirst
    refine ⟨between, hfirst, merge_eq_ok_iff_same.2 ⟨hwords', hid.trans hid'.symm,
      hdate.trans hdate'.symm, fun f => ?_⟩⟩
    have hf := hfields f
    split
    · rename_i hnamed
      rwa [if_pos hnamed] at hf
    · rename_i hnamed
      rw [if_neg hnamed] at hf
      exact hf.trans (hfields' f).symm

section

variable (hne : mask ≠ []) (hne' : mask' ≠ []) (hdisjoint : ∀ s ∈ mask, s ∉ mask')
include hne hne' hdisjoint

/-- No field is what both masks are about. -/
theorem not_namedBy_both {f : UserField} (h : f.NamedBy mask) : ¬ f.NamedBy mask' := fun h' =>
  hdisjoint _ (h.resolve_left hne) (h'.resolve_left hne')

/-- Two merges that are about different fields come to the same in either order. -/
theorem merge_comm :
    (User.merge existing patch mask >>= fun between => User.merge between patch' mask') = .ok u
      ↔ (User.merge existing patch' mask' >>= fun between => User.merge between patch mask)
          = .ok u := by
  have hsame : ∀ f : UserField,
      (if f.NamedBy mask' then patch' else if f.NamedBy mask then patch else existing)
        = if f.NamedBy mask then patch else if f.NamedBy mask' then patch' else existing := by
    intro f
    by_cases hnamed : f.NamedBy mask
    · have hnamed' := not_namedBy_both hne hne' hdisjoint hnamed
      rw [if_neg hnamed', if_pos hnamed, if_pos hnamed]
    · rw [if_neg hnamed, if_neg hnamed]
  rw [merge_merge_iff, merge_merge_iff, and_left_comm]
  simp only [hsame]

/-- What comes of them is on each mask what its patch is. -/
theorem same_of_merge_merge
    (h : (User.merge existing patch mask >>= fun between => User.merge between patch' mask') = .ok u)
    (f : UserField) : (f.path ∈ mask → f.Same u patch) ∧ (f.path ∈ mask' → f.Same u patch') := by
  obtain ⟨_, _, _, _, hfields⟩ := merge_merge_iff.1 h
  have hf := hfields f
  constructor
  · intro hnamed
    have hnamed' := not_namedBy_both hne hne' hdisjoint (f := f) (.inr hnamed)
    rwa [if_neg hnamed', if_pos (.inr hnamed)] at hf
  · intro hnamed'
    rwa [if_pos (.inr hnamed')] at hf

end

end User

/-! ## §4. Merging in an action. -/

namespace Service

open UserDirectory.Call

variable {ο : Type} {existing patch u : User} {mask : List String}

theorem merged_of_error {e : MaskError} (h : User.merge existing patch mask = .error e) :
    (merged existing patch mask : Action ο User) = throw (.invalidArgument e.message) := by
  unfold merged
  rw [h]

theorem merged_of_ok (h : User.merge existing patch mask = .ok u) :
    (merged existing patch mask : Action ο User) = pure u := by
  unfold merged
  rw [h]

/-- What is said of a text that means no field. -/
theorem merged_of_not_mem_words {before after : List String} {s : String}
    (hbefore : ∀ w ∈ before, w ∈ UserField.words) (hs : s ∉ UserField.words) :
    (merged existing patch (before ++ s :: after) : Action ο User)
      = throw (.invalidArgument
          (if s = "id" then "cannot update id field" else "invalid field path: " ++ s)) := by
  rw [merged_of_error (User.merge_eq_error_iff.2 ⟨before, s, after, rfl, hbefore, hs, rfl⟩),
    UserField.message_refusal]

/-- A merge is refused because of the first text in its mask that means no field; the number and the date
of creation are such texts.  Else the fields that the mask is about are those of the patch, and all others
stay.  So neither the order of a mask nor what it says twice matters, to merge once more changes nothing,
and merges that are about different fields come to the same in either order. -/
theorem merging_touches_named (existing patch : User) (mask : List String) :
    ((∃ e, User.merge existing patch mask = .error e) ↔ ∃ s ∈ mask, s ∉ UserField.words)
    ∧ "id" ∉ UserField.words ∧ "create_date" ∉ UserField.words
    ∧ (∀ before s after, mask = before ++ s :: after → (∀ w ∈ before, w ∈ UserField.words) →
        s ∉ UserField.words →
          (merged existing patch mask : Action ο User)
            = throw (.invalidArgument
                (if s = "id" then "cannot update id field" else "invalid field path: " ++ s)))
    ∧ (∀ u, User.merge existing patch mask = .ok u →
        (merged existing patch mask : Action ο User) = pure u
        ∧ u.id = existing.id ∧ u.createDate = existing.createDate
        ∧ (∀ f : UserField, f.Same u (if mask = [] ∨ f.path ∈ mask then patch else existing))
        ∧ User.merge u patch mask = .ok u)
    ∧ (∀ mask', (∀ s, s ∈ mask ↔ s ∈ mask') → ∀ u,
        User.merge existing patch mask = .ok u ↔ User.merge existing patch mask' = .ok u)
    ∧ ∀ patch' mask', mask ≠ [] → mask' ≠ [] → (∀ s ∈ mask, s ∉ mask') →
        (∀ s ∈ mask, s ∈ UserField.words) → (∀ s ∈ mask', s ∈ UserField.words) →
          ∃ u, (User.merge existing patch mask >>= fun between => User.merge between patch' mask')
              = .ok u
            ∧ (User.merge existing patch' mask' >>= fun between => User.merge between patch mask)
              = .ok u
            ∧ ∀ f : UserField, (f.path ∈ mask → f.Same u patch) ∧ (f.path ∈ mask' → f.Same u patch') := by
  refine ⟨?_, by decide, by decide, ?_, fun u h => ?_, fun mask' h u => User.merge_congr h, ?_⟩
  · exact User.exists_merge_error_iff
  · rintro before s after rfl hbefore hs
    exact merged_of_not_mem_words hbefore hs
  · obtain ⟨_, hid, hdate, hfields⟩ := User.merge_eq_ok_iff_same.1 h
    exact ⟨merged_of_ok h, hid, hdate, hfields, User.merge_merged h⟩
  · intro patch' mask' hne hne' hdisjoint hwords hwords'
    obtain ⟨between, hfirst⟩ := User.exists_merge_iff.2 hwords
    obtain ⟨u, hsecond⟩ := User.exists_merge_iff.2 hwords'
    have hboth : (User.merge existing patch mask >>= fun between => User.merge between patch' mask')
        = .ok u := bind_eq_ok.2 ⟨between, hfirst, hsecond⟩
    exact ⟨u, hboth, (User.merge_comm hne hne' hdisjoint).1 hboth,
      User.same_of_merge_merge hne hne' hdisjoint hboth⟩

/-- A user with a mail address and a telephone number. -/
def reachedAdmin : User :=
  ⟨1, "ada", .admin, none, some "ada@roster", some "42", none, [], .empty, [], some .epoch, none⟩

/-- Another mail address. -/
def movedMail : User := ⟨9, "eve", .guest, none, some "ada@example", none, none, [], .empty, [], none, none⟩

/-- Another telephone number. -/
def movedPhone : User := ⟨9, "eve", .guest, none, none, some "43", none, [], .empty, [], none, none⟩

/-- Both are taken, whichever comes first; but a date of creation is refused. -/
theorem merging_touches_named_contact :
    (∃ u, (User.merge reachedAdmin movedMail ["email"] >>= fun u => User.merge u movedPhone ["phone"])
          = .ok u
        ∧ (User.merge reachedAdmin movedPhone ["phone"] >>= fun u => User.merge u movedMail ["email"])
          = .ok u
        ∧ u = { reachedAdmin with email := some "ada@example", phone := some "43" })
    ∧ (merged reachedAdmin movedMail ["email", "create_date", "id"] : Action Unit User)
        = throw (.invalidArgument "invalid field path: create_date") := by
  obtain ⟨_, _, _, _, _, _, hcomm⟩ :=
    merging_touches_named (ο := Unit) reachedAdmin movedMail ["email"]
  obtain ⟨_, _, _, hrefused, _⟩ :=
    merging_touches_named (ο := Unit) reachedAdmin movedMail ["email", "create_date", "id"]
  obtain ⟨u, hthere, hback, _⟩ :=
    hcomm movedPhone ["phone"] nofun nofun (by decide) (by decide) (by decide)
  refine ⟨⟨u, hthere, hback, ?_⟩, hrefused ["email"] "create_date" ["id"] rfl (by decide) (by decide)⟩
  exact Except.ok.inj (hthere.symm.trans rfl)

end Service

end UserDirectory
