import UserDirectory.Proofs.Concurrency.Lineage
import UserDirectory.Proofs.Concurrency.Upkeep
/-!
# Which updates are lost

A stored user carries no mark of when it was read, so a call that writes back what it has read undoes
whatever was written in between.  Calls that change one user, each its own fields, leave behind what the
calls of the lineage have given; and only a call that another one has overtaken is not among them.

Main statements:
  * `Kept.step`: where the stored value and those that the calls hold come from, step after step;
  * `System.update_survives`: what is left of each call in the end;
  * `System.update_lost`: that an update can be lost.
-/

namespace UserDirectory.Service

open UserDirectory.Call
open UserDirectory.Store (Operation StoreError Table)
open UserDirectory.Time (Instant)

/-! ## §1. Requests that change one user. -/

/-- Some login that is reported happened at an instant, as far as the report tells. -/
def LoggedIn (activities : Inbound UserActivity) (at_ : Instant) : Prop :=
  ∃ x ∈ activities.arrivals, ∃ a, x.content = .ok a ∧ ∀ t, a.timestamp = some t → at_ = t

/-- The fields that a request means to change. -/
def Names (r : Request) (f : UserField) : Prop :=
  match r with
  | .updateUser q => ∃ fields, maskFields q.updateMask = .ok fields ∧ f ∈ fields
  | .userActivityStream _ => f = .lastLogin
  | _ => False

/-- A user has in a field what a request wants there. -/
def Gives (r : Request) (f : UserField) (v : User) : Prop :=
  match r with
  | .updateUser q => ∃ patch, q.user = some patch ∧ f.Same v patch
  | .userActivityStream a => ∃ at_, v.lastLogin = some at_ ∧ LoggedIn a at_
  | _ => False

/-- Requests that change the user with a number: updates that say which fields, and logins. -/
inductive Changes (id : UInt32) : Request → Prop
  | update {q : UpdateUserRequest} {patch : User} {fields : List UserField} (hu : q.user = some patch)
      (hid : patch.id = id) (hne : q.updateMask ≠ []) (hmask : maskFields q.updateMask = .ok fields) :
      Changes id (.updateUser q)
  | logins {activities : Inbound UserActivity}
      (h : ∀ x ∈ activities.arrivals, ∀ a, x.content = .ok a → a.userId = id ∧ a.kind = .login) :
      Changes id (.userActivityStream activities)

/-- No two of the requests mean to change one field, unless both report logins. -/
def Apart (rs : List Request) : Prop :=
  ∀ (i j : Nat) (r r' : Request), rs[i]? = some r → rs[j]? = some r' → i ≠ j → ∀ f, Names r f → Names r' f →
    ∃ a a', r = .userActivityStream a ∧ r' = .userActivityStream a'

/-- What a request makes of a user. -/
structure Revision (r : Request) (old new : User) : Prop where
  id_eq : new.id = old.id
  createDate_eq : new.createDate = old.createDate
  named : ∀ f, Names r f → Gives r f new
  others : ∀ f, ¬ Names r f → f.Same new old

/-- What a request wants in a field is there or not, whatever the other fields hold. -/
theorem Gives.congr {r : Request} {f : UserField} {v w : User} (hnames : Names r f)
    (h : Gives r f v) (hsame : f.Same w v) : Gives r f w := by
  cases r with
  | updateUser q =>
    obtain ⟨patch, hpatch, hf⟩ := h
    exact ⟨patch, hpatch, hsame.trans hf⟩
  | userActivityStream a =>
    obtain ⟨at_, hat, hlogged⟩ := h
    cases hnames
    exact ⟨at_, Eq.trans hsame hat, hlogged⟩
  | _ => exact h

/-- A merged user is what the request makes of the stored one. -/
theorem Revision.of_merge {q : UpdateUserRequest} {patch old new : User} (hu : q.user = some patch)
    (h : User.merge old patch q.updateMask = .ok new) : Revision (.updateUser q) old new := by
  obtain ⟨fields, hmask, _⟩ := User.merge_eq_ok_iff.1 h
  obtain ⟨hid, hdate, hsame⟩ := User.merge_spec hmask h
  refine ⟨hid, hdate, fun f hnames => ?_, fun f hnot => ?_⟩
  · obtain ⟨fields', hmask', hmem⟩ := hnames
    rw [hmask] at hmask'
    cases hmask'
    have := hsame f
    rw [if_pos hmem] at this
    exact ⟨patch, hu, this⟩
  · have := hsame f
    rw [if_neg fun hmem => hnot ⟨fields, hmask, hmem⟩] at this
    exact this

/-- A user with another login is what the report of the login makes of the stored one. -/
theorem Revision.of_login {activities : Inbound UserActivity} {old : User} {at_ : Instant}
    (h : LoggedIn activities at_) :
    Revision (.userActivityStream activities) old { old with lastLogin := some at_ } where
  id_eq := rfl
  createDate_eq := rfl
  named f hnames := by
    cases hnames
    exact ⟨at_, rfl, h⟩
  others f hnot := by
    cases f with
    | lastLogin => exact absurd rfl hnot
    | _ => rfl

/-! ## §2. The terms. -/

/-- What a call knows: the user that it has just read, and whether it has ever written one. -/
structure Hand where
  held : Option User
  wrote : Bool

/-- Calls read the user with a number, and write back what they have read with a revision `R`.  They
find the user, and can write if they leave the name as it is. -/
def changing (id : UInt32) (R : User → User → Prop) : Terms Hand where
  allowed g
    | .get k => k = id
    | .contains k => k = id
    | .update v => ∃ old, g.held = some old ∧ R old v
    | _ => False
  promised g
    | .get _ => fun found : Except StoreError User => ∃ v, found = .ok v
    | .contains _ => fun known : Except StoreError Bool => known = .ok true
    | .update v => fun done : Except StoreError Unit =>
      ∀ old, g.held = some old → old.username = v.username → done = .ok ()
    | _ => fun _ => True
  after g
    | .get _ => fun found : Except StoreError User => ⟨found.toOption, g.wrote⟩
    | .update _ => fun done : Except StoreError Unit => ⟨none, g.wrote || done.isOk⟩
    | _ => fun _ => ⟨none, g.wrote⟩

/-- What is known of a call that has ended well: an update has written, and so has a report. -/
def Written (r : Request) (g : Hand) : Prop :=
  match r with
  | .updateUser _ => g.wrote = true
  | .userActivityStream a => a.arrivals ≠ [] → g.wrote = true
  | _ => True

variable {id : UInt32} {R : User → User → Prop} {g : Hand}

/-- An update abides by the terms, and has written when it ends well. -/
theorem abides_changing_update {q : UpdateUserRequest} {patch : User} (hu : q.user = some patch)
    (hid : patch.id = id) (hR : ∀ old new, Revision (.updateUser q) old new → R old new) :
    (updateUser q : Action Empty User).Abides (changing id R) g
      fun g' result => ∀ x, result = .ok x → g'.wrote = true := by
  rw [abides_updateUser, hu]
  simp only
  split
  · -- a request that does not pass the checks ends with an error
    exact fun x h => by cases h
  · refine ⟨⟨hid, fun found hfound => ?_⟩, fun x h => by cases h⟩
    -- that the user is found is promised
    obtain ⟨old, rfl⟩ := hfound
    simp only
    cases hmerge : User.merge old patch q.updateMask with
    | error e => exact fun x h => by cases h
    | ok new =>
      refine ⟨⟨⟨old, rfl, hR old new (.of_merge hu hmerge)⟩, fun done _ x hx => ?_⟩,
        fun x h => by cases h⟩
      cases done with
      | error e => cases hx
      | ok _ => exact Bool.or_true _

/-- A reported login abides by the terms, and has been written when it is answered. -/
theorem abides_changing_login {activities : Inbound UserActivity} {a : UserActivity}
    (hid : a.userId = id) (hkind : a.kind = .login)
    (hlogged : ∀ at_, (∀ t, a.timestamp = some t → at_ = t) → LoggedIn activities at_)
    (hR : ∀ old new, Revision (.userActivityStream activities) old new → R old new) :
    (activityItem () a).Abides (changing id R) g
      fun g' outcome => ∀ kept, outcome = .ok kept → g'.wrote = true := by
  unfold activityItem
  rw [Action.abides_bind, Action.abides_ensureLive]
  refine ⟨?_, fun kept h => by cases h⟩
  show Action.Abides _ (recordActivity a >>= _) g _
  rw [Action.abides_bind, abides_recordActivity]
  refine ⟨hid, fun known hknown => ?_⟩
  cases hknown
  simp only
  rw [if_pos hkind, abides_recordLogin]
  intro at_ hat
  rw [abides_touchLogin]
  refine ⟨hid, fun found hfound => ?_⟩
  obtain ⟨old, rfl⟩ := hfound
  refine ⟨⟨old, rfl, hR _ _ (.of_login (hlogged at_ hat))⟩, fun done hdone => ?_⟩
  -- a login leaves the name as it is, so that it is written is promised
  cases hdone old rfl rfl
  intro now
  rw [Action.abides_send]
  exact ⟨fun _ _ => Bool.or_true _, fun kept h => by cases h⟩

/-- Every request that changes one user abides by the terms, whatever its call remembers. -/
theorem Changes.abides {r : Request} (h : Changes id r)
    (hR : ∀ old new, Revision r old new → R old new) :
    (Course.start r).Abides (changing id R) (fun g' _ => Written r g') g := by
  cases h with
  | update hu hid _ _ => exact abides_changing_update hu hid hR
  | @logins activities hlogins =>
    have hitem : ∀ x ∈ activities.arrivals, ∀ a, x.content = .ok a → ∀ g,
        (activityItem () a).Abides (changing id R) g
          fun g' outcome => ∀ kept, outcome = .ok kept → g'.wrote = true := by
      intro x hx a ha g
      obtain ⟨hid, hkind⟩ := hlogins x hx a ha
      exact abides_changing_login hid hkind (fun at_ hat => ⟨x, hx, a, ha, hat⟩) hR
    show Awaits (r := .userActivityStream activities) _ _ activities.arrivals () g
    -- the first one that is answered has been written, and that is never forgotten
    cases harr : activities.arrivals with
    | nil => exact fun _ _ hne => absurd harr hne
    | cons x rest =>
      rw [harr] at hitem
      obtain ⟨content, delay⟩ := x
      cases content with
      | error cause => exact trivial
      | ok a =>
        refine (hitem _ List.mem_cons_self a rfl g).mono fun g' outcome hout kept hkept => ?_
        refine Awaits.of_forall (r := .userActivityStream activities)
          (J := fun _ g => g.wrote = true) ?_ ?_ (hout kept hkept)
        · -- the items that follow
          intro x hx a ha _ g _
          exact hitem x (List.mem_cons_of_mem _ hx) a ha g
        · -- the end of the stream
          intro _ g hg _ _ _
          exact hg

/-! ## §3. What all calls together keep. -/

section Kept

variable (t₀ : Table) (u : User) (rs : List Request)

/-- The name of a user is that of nobody else. -/
def NameFree (v : User) : Prop :=
  ∀ k w, k ≠ u.id → t₀.get? k = some w → w.username ≠ v.username

/-- A user who has come of `u` through the calls of a lineage: in each field it has what one of them
wants there, or what `u` has if none of them means the field. -/
structure Traced (line : List Nat) (v : User) : Prop where
  id_eq : v.id = u.id
  createDate_eq : v.createDate = u.createDate
  free : NameFree t₀ u v
  field : ∀ f : UserField,
    (f.Same v u ∧ ∀ i ∈ line, ∀ r, rs[i]? = some r → ¬ Names r f)
    ∨ ∃ i ∈ line, ∃ r, rs[i]? = some r ∧ Names r f ∧ Gives r f v

/-- What a call may make of a user. -/
def revisionOf (i : Nat) (old new : User) : Prop := ∃ r, rs[i]? = some r ∧ Revision r old new

/-- The state of all calls together and what they have done, when `u` was stored at first. -/
structure Kept (s : System) (trace : List Event) (mem : Nat → Hand) : Prop where
  others : ∀ k, k ≠ u.id → s.table.get? k = t₀.get? k
  stored : ∃ v, s.table.get? u.id = some v ∧ Traced t₀ u rs (lineage trace).current v
  held : ∀ i v, (mem i).held = some v →
    Reading trace i ∧ Traced t₀ u rs ((lineage trace).held i) v
  wrote : ∀ i, (mem i).wrote = true → Wrote i trace
  paired : Paired trace
  abides : s.Abides (fun i => changing u.id (revisionOf rs i)) (fun _ r g _ => Written r g) mem

end Kept

variable {t₀ : Table} {u v : User} {rs : List Request} {line : List Nat} {s s' : System}
  {trace : List Event} {mem : Nat → Hand}

/-- What a call makes of a user has come of it through one call more. -/
theorem Traced.revise {i : Nat} {r : Request} {new : User} (h : Traced t₀ u rs line v)
    (hi : rs[i]? = some r) (hrev : Revision r v new) (hfree : NameFree t₀ u new) :
    Traced t₀ u rs (line ++ [i]) new where
  id_eq := hrev.id_eq.trans h.id_eq
  createDate_eq := hrev.createDate_eq.trans h.createDate_eq
  free := hfree
  field f := by
    by_cases hnames : Names r f
    · exact .inr ⟨i, by simp, r, hi, hnames, hrev.named f hnames⟩
    · -- the call leaves the field alone, and so it is as it has come down
      have hsame := hrev.others f hnames
      rcases h.field f with ⟨hold, hnone⟩ | ⟨j, hj, r', hj', hnames', hgives⟩
      · refine .inl ⟨hsame.trans hold, fun j hj r' hj' => ?_⟩
        rcases List.mem_append.1 hj with hj | hj
        · exact hnone j hj r' hj'
        · rw [List.mem_singleton.1 hj, hi] at hj'
          cases hj'
          exact hnames
      · exact .inr ⟨j, List.mem_append_left _ hj, r', hj', hnames', hgives.congr hnames' hsame⟩

/-- Before anything has happened, everything is as it was. -/
theorem Kept.start (ht : t₀.Tidy) (hu : t₀.get? u.id = some u) :
    Kept t₀ u rs ⟨t₀, []⟩ [] fun _ => ⟨none, false⟩ where
  others _ _ := rfl
  stored := by
    refine ⟨u, hu, rfl, rfl, fun k w hk hw hname => ?_, fun f => ?_⟩
    · exact hk (ht.name_inj k u.id w u hw hu hname)
    · exact .inl ⟨.refl f u, by intro i hi; cases hi⟩
  held i v h := by cases h
  wrote i h := by cases h
  paired := .nil
  abides i r c h := by cases h

/-- What the others hold stays as it is, and they still are about to write. -/
theorem Kept.held_of_ne (h : Kept t₀ u rs s trace mem) {e : Event} {j : Nat} (hj : e.caller ≠ j)
    (hv : (mem j).held = some v) :
    Reading (trace ++ [e]) j ∧ Traced t₀ u rs ((lineage (trace ++ [e])).held j) v := by
  obtain ⟨hreading, htraced⟩ := h.held j v hv
  rw [lineage_append, Lineage.held_next _ hj]
  exact ⟨hreading.append hj, htraced⟩

/-- Whatever a call holds after an event that is no write of it, what calls have written before is
still written. -/
theorem Kept.wrote_append (h : Kept t₀ u rs s trace mem) (e : Event) (i : Nat)
    {hand : Hand} (hhand : hand.wrote = (mem i).wrote) (j : Nat)
    (hj : (Function.update mem i hand j).wrote = true) : Wrote j (trace ++ [e]) := by
  by_cases hji : j = i
  · subst hji
    rw [Function.update_self, hhand] at hj
    exact (h.wrote _ hj).append e
  · rw [Function.update_of_ne hji] at hj
    exact (h.wrote _ hj).append e

/-- After an event of a call that holds nothing any more, only the others hold something. -/
theorem Kept.held_append (h : Kept t₀ u rs s trace mem) {e : Event} {i : Nat} (hi : e.caller = i)
    {wrote : Bool} (j : Nat) (w : User) (hw : (Function.update mem i ⟨none, wrote⟩ j).held = some w) :
    Reading (trace ++ [e]) j ∧ Traced t₀ u rs ((lineage (trace ++ [e])).held j) w := by
  by_cases hj : j = i
  · rw [hj, Function.update_self] at hw
    cases hw
  · rw [Function.update_of_ne hj] at hw
    exact h.held_of_ne (by rw [hi]; exact Ne.symm hj) hw

/-- An event that changes nothing, after which its call holds nothing. -/
theorem Kept.idle (h : Kept t₀ u rs s trace mem) {e : Event} {i : Nat} (hi : e.caller = i)
    (hw : e.isWrite = false) (htable : s'.table = s.table)
    (habides : s'.Abides (fun i => changing u.id (revisionOf rs i)) (fun _ r g _ => Written r g)
      (Function.update mem i ⟨none, (mem i).wrote⟩)) :
    Kept t₀ u rs s' (trace ++ [e]) (Function.update mem i ⟨none, (mem i).wrote⟩) where
  others k hk := by
    rw [htable]
    exact h.others k hk
  stored := by
    rw [htable, lineage_append, Lineage.current_next _ hw]
    exact h.stored
  held := h.held_append hi
  wrote := h.wrote_append e i rfl
  paired := h.paired.append fun hwrite => by rw [hw] at hwrite; cases hwrite
  abides := habides

/-- A call that reads holds what is stored. -/
theorem Kept.read (h : Kept t₀ u rs s trace mem) {e : Event} {i : Nat} (hi : e.caller = i)
    (hr : e.isRead = true) (hv : s.table.get? u.id = some v) (htable : s'.table = s.table)
    (habides : s'.Abides (fun i => changing u.id (revisionOf rs i)) (fun _ r g _ => Written r g)
      (Function.update mem i ⟨some v, (mem i).wrote⟩)) :
    Kept t₀ u rs s' (trace ++ [e]) (Function.update mem i ⟨some v, (mem i).wrote⟩) where
  others k hk := by
    rw [htable]
    exact h.others k hk
  stored := by
    rw [htable, lineage_append, Lineage.next_of_isRead _ hr]
    exact h.stored
  held j w hw := by
    by_cases hj : j = i
    · -- what the call holds is what is stored, with the same lineage
      rw [hj, Function.update_self] at hw
      cases hw
      rw [hj, ← hi]
      refine ⟨.of_isRead hr, ?_⟩
      rw [lineage_append, Lineage.next_of_isRead _ hr]
      show Traced t₀ u rs (Function.update (lineage trace).held e.caller _ e.caller) v
      rw [Function.update_self]
      obtain ⟨v', hv', htraced⟩ := h.stored
      rw [hv] at hv'
      cases hv'
      exact htraced
    · rw [Function.update_of_ne hj] at hw
      exact h.held_of_ne (by rw [hi]; exact Ne.symm hj) hw
  wrote := h.wrote_append e i rfl
  paired := h.paired.append fun hwrite => by rw [e.isWrite_eq_false hr] at hwrite; cases hwrite
  abides := habides

/-- A call that writes continues what it has read. -/
theorem Kept.write (h : Kept t₀ u rs s trace mem) {e : Event} {i : Nat} {old new : User}
    (hi : e.caller = i) (hw : e.isWrite = true) (hold : (mem i).held = some old)
    (hrev : revisionOf rs i old new) (hfree : NameFree t₀ u new)
    (htable : s'.table = s.table.insert new.id new)
    (habides : s'.Abides (fun i => changing u.id (revisionOf rs i)) (fun _ r g _ => Written r g)
      (Function.update mem i ⟨none, true⟩)) :
    Kept t₀ u rs s' (trace ++ [e]) (Function.update mem i ⟨none, true⟩) := by
  obtain ⟨r, hr, hrev⟩ := hrev
  obtain ⟨hreading, htraced⟩ := h.held i old hold
  have hnew := htraced.revise hr hrev hfree
  constructor
  · -- the other users
    intro k hk
    rw [htable, SortedMap.get?_insert, hnew.id_eq, if_neg hk]
    exact h.others k hk
  · -- the user that is stored
    refine ⟨new, ?_, ?_⟩
    · rw [htable, SortedMap.get?_insert, hnew.id_eq, if_pos rfl]
    · rw [lineage_append, Lineage.next_of_isWrite _ hw, hi]
      exact hnew
  · -- what the calls hold: this one nothing more
    exact h.held_append hi
  · -- who has written: this call, and those that had
    intro j hj
    by_cases hji : j = i
    · exact ⟨e, List.mem_append_right _ List.mem_cons_self, hw, hi.trans hji.symm⟩
    · rw [Function.update_of_ne hji] at hj
      exact (h.wrote _ hj).append e
  · -- the call has read before it writes
    exact h.paired.append fun _ => by rw [hi]; exact hreading
  · exact habides

/-- The name of a user whom a call has read is free for the user, so the store cannot refuse it. -/
theorem Kept.isFree_of_held (h : Kept t₀ u rs s trace mem) {i : Nat} {old new : User}
    (hold : (mem i).held = some old) (hid : new.id = u.id) (hname : old.username = new.username) :
    s.table.isFree new.id new.username = true := by
  obtain ⟨v, hv, hstored⟩ := h.stored
  refine Table.isFree_iff.2 fun k w hw => ?_
  by_cases hk : k = u.id
  · rw [hk, hv] at hw
    cases hw
    exact .inl (hstored.id_eq.trans hid.symm)
  · rw [h.others k hk] at hw
    rw [← hname]
    exact .inr ((h.held i old hold).2.free k w hk hw)

/-- A call that replaces the user by what it has made of what it has read keeps everything, whether the
store takes it or not. -/
theorem Kept.update (h : Kept t₀ u rs s trace mem) (ht : t₀.Tidy) {i : Nat} {new : User}
    {now : Instant} (hallowed : (changing u.id (revisionOf rs i)).allowed (mem i) (.update new))
    (htable : s'.table = (s.table.perform now (.update new)).2)
    (habides : (changing u.id (revisionOf rs i)).promised (mem i) (.update new)
        (s.table.perform now (.update new)).1 →
      s'.Abides (fun i => changing u.id (revisionOf rs i)) (fun _ r g _ => Written r g)
        (Function.update mem i ((changing u.id (revisionOf rs i)).after (mem i) (.update new)
          (s.table.perform now (.update new)).1))) :
    ∃ mem', Kept t₀ u rs s' (trace ++ [⟨⟨.update new, (s.table.perform now (.update new)).1⟩, i⟩])
      mem' := by
  obtain ⟨v, hv, _⟩ := h.stored
  obtain ⟨old, hold, hrev⟩ := hallowed
  obtain ⟨r, hr, hrevision⟩ := hrev
  obtain ⟨_, htraced⟩ := h.held i old hold
  have hid : new.id = u.id := hrevision.id_eq.trans htraced.id_eq
  obtain ⟨_, _, hfree, hdone⟩ | ⟨e, hfailed⟩ := Table.perform_update_cases s.table now new
  · -- the store has taken it
    rw [hdone] at htable habides ⊢
    refine ⟨_, h.write (e := ⟨⟨.update new, Except.ok ()⟩, i⟩) rfl rfl hold ⟨r, hr, hrevision⟩ ?_
      htable ?_⟩
    · -- a name that the store has found free was free in the first table
      intro k w hk hw
      rcases Table.isFree_iff.1 hfree k w (by rw [h.others k hk, hw]) with hsame | hne
      · exact absurd ((ht.id_eq k w hw).symm.trans (hsame.trans hid)) hk
      · exact hne
    · have hkept := habides fun _ _ _ => rfl
      rwa [show (changing u.id (revisionOf rs i)).after (mem i) (.update new) (Except.ok ())
        = ⟨none, true⟩ from congrArg (Hand.mk none) (Bool.or_true _)] at hkept
  · -- only a new name can have been refused, and that is not promised to go well
    have hnot : ∀ old, (mem i).held = some old → old.username = new.username →
        (Except.error e : Except StoreError Unit) = .ok () := by
      intro old hold hname
      rw [Table.perform_update_of_isFree (hid ▸ hv) (h.isFree_of_held hold hid hname)] at hfailed
      cases hfailed
    rw [hfailed] at htable habides ⊢
    refine ⟨_, h.idle rfl rfl htable ?_⟩
    have hkept := habides hnot
    rwa [show (changing u.id (revisionOf rs i)).after (mem i) (.update new) (Except.error e)
      = ⟨none, (mem i).wrote⟩ from congrArg (Hand.mk none) (Bool.or_false _)] at hkept

/-- Whatever a call asks for and may ask for, everything is kept. -/
theorem Kept.event (h : Kept t₀ u rs s trace mem) (ht : t₀.Tidy) {i : Nat} {op : Operation}
    {now : Instant} (hallowed : (changing u.id (revisionOf rs i)).allowed (mem i) op)
    (htable : s'.table = (s.table.perform now op).2)
    (habides : (changing u.id (revisionOf rs i)).promised (mem i) op (s.table.perform now op).1 →
      s'.Abides (fun i => changing u.id (revisionOf rs i)) (fun _ r g _ => Written r g)
        (Function.update mem i
          ((changing u.id (revisionOf rs i)).after (mem i) op (s.table.perform now op).1))) :
    ∃ mem', Kept t₀ u rs s' (trace ++ [⟨⟨op, (s.table.perform now op).1⟩, i⟩]) mem' := by
  obtain ⟨v, hv, _⟩ := h.stored
  cases op with
  | get k =>
    cases hallowed
    have hfetch : s.table.fetch u.id = .ok v := Table.fetch_eq_ok_iff.2 hv
    have hdone : s.table.perform now (.get u.id) = (Except.ok v, s.table) := Prod.ext hfetch rfl
    rw [hdone] at htable habides ⊢
    exact ⟨_, h.read rfl rfl hv htable (habides ⟨v, rfl⟩)⟩
  | contains k =>
    cases hallowed
    have hyes : s.table.contains u.id = true := Table.contains_iff.2 ⟨v, hv⟩
    have hdone : s.table.perform now (.contains u.id) = (Except.ok true, s.table) :=
      Prod.ext (congrArg Except.ok hyes) rfl
    rw [hdone] at htable habides ⊢
    exact ⟨_, h.idle rfl rfl htable (habides rfl)⟩
  | update new => exact h.update ht hallowed htable habides
  | add u => cases hallowed
  | delete k => cases hallowed
  | list f => cases hallowed
  | listByRole r => cases hallowed
  | count => cases hallowed

/-- A step of any call keeps everything, and so does a call that begins. -/
theorem Kept.step (h : Kept t₀ u rs s trace mem) (ht : t₀.Tidy) (hrs : ∀ r ∈ rs, Changes u.id r)
    {event : Option Event} (hstep : s.Step event s') (hpre : s'.requests <+: rs) :
    ∃ mem', Kept t₀ u rs s' (trace ++ event.toList) mem' := by
  obtain ⟨r, rfl, rfl⟩ | ⟨rfl, htable, _, habides⟩ | ⟨i, op, now, rfl, htable, _, hallowed, habides⟩ :=
    h.abides.step hstep
  · -- a call begins, and knows nothing yet
    have hr : rs[s.calls.length]? = some r := by
      obtain ⟨more, hmore⟩ := hpre
      rw [← hmore]
      simp [System.requests, Ongoing.start]
    refine ⟨mem, ⟨by simpa using h.others, by simpa using h.stored, by simpa using h.held,
      by simpa using h.wrote, by simpa using h.paired, h.abides.begin ?_⟩⟩
    -- what it may make of the user is what its place in the list says
    exact (hrs r (List.mem_of_getElem? hr)).abides fun old new hrev => ⟨r, hr, hrev⟩
  · -- a call goes on without the store, fails or is given up
    rw [Option.toList_none, List.append_nil]
    refine ⟨mem, ⟨?_, ?_, h.held, h.wrote, h.paired, habides⟩⟩
    · rw [htable]
      exact h.others
    · rw [htable]
      exact h.stored
  · exact h.event ht hallowed htable habides

/-- Any number of steps keep everything. -/
theorem Kept.run (ht : t₀.Tidy) (hu : t₀.get? u.id = some u) (hrs : ∀ r ∈ rs, Changes u.id r)
    (hrun : System.Runs ⟨t₀, []⟩ trace s) (hpre : s.requests <+: rs) :
    ∃ mem, Kept t₀ u rs s trace mem := by
  induction hrun with
  | refl => exact ⟨_, .start ht hu⟩
  | step _ hstep ih =>
    obtain ⟨mem, h⟩ := ih (hstep.requests_prefix.trans hpre)
    exact h.step ht hrs hstep hpre

/-! ## §4. What is left in the end. -/

/-- A call that has ended well has written. -/
theorem Kept.written (h : Kept t₀ u rs s trace mem) {i : Nat} {r : Request} {x : r.method.Result}
    (hi : s.calls[i]? = some ⟨r, .ended (.ok x)⟩) : Written r (mem i) :=
  h.abides i r _ hi x rfl

/-- A call that has written and was not overtaken has a part in what is stored. -/
theorem Kept.mem_lineage (h : Kept t₀ u rs s trace mem) {i : Nat} (hwrote : Wrote i trace)
    (hnot : ¬ Overtaken i trace) : i ∈ (lineage trace).current :=
  (h.paired.mem_lineage_or_overtaken hwrote).resolve_right hnot

/-- In a field that a call of the lineage means, there is what one of them wants there. -/
theorem Traced.gives {i : Nat} {r : Request} {f : UserField} (h : Traced t₀ u rs line v)
    (hi : rs[i]? = some r) (hmem : i ∈ line) (hnames : Names r f) :
    ∃ (j : Nat) (r' : Request), rs[j]? = some r' ∧ Names r' f ∧ Gives r' f v := by
  rcases h.field f with ⟨_, hnone⟩ | ⟨j, _, r', hj, hr', hgives⟩
  · exact absurd hnames (hnone i hmem r hi)
  · exact ⟨j, r', hj, hr', hgives⟩

namespace System

/-- However the calls come between each other: in the end the user has what it had in every field that
no call means, what an update that has written wants in each of its fields, and a login if one has been
written, unless the call was overtaken.  For then another one has read before it and written after it,
and what it wrote may be lost. -/
theorem update_survives {t : Table} (ht : t.Reachable) (hu : t.get? u.id = some u)
    (hrun : Runs ⟨t, []⟩ trace s) (hcalls : ∀ r ∈ s.requests, Changes u.id r)
    (hapart : Apart s.requests) :
    ∃ v, s.table.get? u.id = some v
      ∧ (∀ (i : Nat) (q : UpdateUserRequest) (x : User),
          s.calls[i]? = some ⟨.updateUser q, .ended (.ok x)⟩ → Wrote i trace)
      ∧ (∀ (i : Nat) (a : Inbound UserActivity),
          s.calls[i]? = some ⟨.userActivityStream a, .ended (.ok ())⟩ → a.arrivals ≠ [] →
            Wrote i trace)
      ∧ (∀ (i : Nat) (q : UpdateUserRequest) (patch : User) (fields : List UserField),
          s.requests[i]? = some (.updateUser q) → Wrote i trace → ¬ Overtaken i trace →
            q.user = some patch → maskFields q.updateMask = .ok fields →
            ∀ f ∈ fields, f.Same v patch)
      ∧ (∀ (i : Nat) (a : Inbound UserActivity),
          s.requests[i]? = some (.userActivityStream a) → Wrote i trace → ¬ Overtaken i trace →
            ∃ at_ a', v.lastLogin = some at_ ∧ .userActivityStream a' ∈ s.requests
              ∧ LoggedIn a' at_)
      ∧ v.id = u.id ∧ v.createDate = u.createDate
      ∧ ∀ f : UserField, (∀ r ∈ s.requests, ¬ Names r f) → f.Same v u := by
  obtain ⟨mem, h⟩ := Kept.run ht.tidy hu hcalls hrun List.prefix_rfl
  obtain ⟨v, hv, htraced⟩ := h.stored
  refine ⟨v, hv, ?_, ?_, ?_, ?_, htraced.id_eq, htraced.createDate_eq, ?_⟩
  · -- an update that has ended well has written
    intro i q x hi
    exact h.wrote i (h.written hi)
  · -- and so has a report of some logins
    intro i a hi hne
    exact h.wrote i (h.written hi hne)
  · -- the fields of an update
    intro i q patch fields hi hwrote hnot hpatch hmask f hf
    have hnames : Names (.updateUser q) f := ⟨fields, hmask, hf⟩
    obtain ⟨j, r, hj, hr, hgives⟩ := htraced.gives hi (h.mem_lineage hwrote hnot) hnames
    by_cases hij : i = j
    · -- nobody else means the field, so what stands there is what the call has written
      rw [← hij, hi] at hj
      cases hj
      obtain ⟨patch', hpatch', hsame⟩ := hgives
      rw [hpatch] at hpatch'
      cases hpatch'
      exact hsame
    · -- two that mean one field are both reports
      obtain ⟨_, _, hstream, _⟩ := hapart i j _ _ hi hj hij f hnames hr
      cases hstream
  · -- the last login: any report may have given it, but no update
    intro i a hi hwrote hnot
    obtain ⟨j, r, hj, hr, hgives⟩ :=
      htraced.gives hi (h.mem_lineage hwrote hnot) (f := .lastLogin) rfl
    have hstream : ∃ a', r = .userActivityStream a' := by
      by_cases hij : i = j
      · rw [← hij, hi] at hj
        exact ⟨a, (Option.some.inj hj).symm⟩
      · obtain ⟨_, a', _, heq⟩ := hapart i j _ _ hi hj hij .lastLogin rfl hr
        exact ⟨a', heq⟩
    obtain ⟨a', rfl⟩ := hstream
    obtain ⟨at_, hat, hlogged⟩ := hgives
    exact ⟨at_, a', hat, List.mem_of_getElem? hj, hlogged⟩
  · -- the fields that nobody means
    intro f hnone
    rcases htraced.field f with ⟨hsame, _⟩ | ⟨j, _, r, hj, hr, _⟩
    · exact hsame
    · exact absurd hr (hnone r (List.mem_of_getElem? hj))

/-! ## §5. An update that is lost. -/

/-- That nothing is lost whenever all updates have ended well. -/
def NothingLost : Prop :=
  ∀ (t : Table) (u : User) (s : System) (trace : List Event), t.Reachable →
    t.get? u.id = some u → Runs ⟨t, []⟩ trace s → (∀ r ∈ s.requests, Changes u.id r) →
    Apart s.requests →
    (∀ (i : Nat) (q : UpdateUserRequest) (c : Course (.updateUser q)),
      s.calls[i]? = some ⟨.updateUser q, c⟩ → ∃ x, c = .ended (.ok x)) →
    ∃ v, s.table.get? u.id = some v
      ∧ (∀ (q : UpdateUserRequest) (patch : User) (fields : List UserField),
          .updateUser q ∈ s.requests → q.user = some patch → maskFields q.updateMask = .ok fields →
            ∀ f ∈ fields, f.Same v patch)
      ∧ (∀ (i : Nat) (a : Inbound UserActivity),
          s.requests[i]? = some (.userActivityStream a) → Wrote i trace →
            ∃ at_ a', v.lastLogin = some at_ ∧ .userActivityStream a' ∈ s.requests
              ∧ LoggedIn a' at_)
      ∧ v.id = u.id ∧ v.createDate = u.createDate
      ∧ ∀ f : UserField, (∀ r ∈ s.requests, ¬ Names r f) → f.Same v u

/-- The first user as it is stored. -/
def storedAdmin : User := Store.withDefaults firstAdmin .epoch

/-- The table that holds nobody else. -/
def adminTable : Table := (Table.perform .empty .epoch (.add firstAdmin)).2

/-- Gives the first user an address for mail. -/
def mailUpdate : UpdateUserRequest := ⟨some { firstAdmin with email := some "ada@roster" }, ["email"]⟩

/-- Gives the first user a telephone. -/
def phoneUpdate : UpdateUserRequest := ⟨some { firstAdmin with phone := some "42" }, ["phone"]⟩

/-- The two updates, both of which read before either writes; all that is asked of the store. -/
def lostTrace : List Event :=
  [⟨⟨.get 1, Except.ok storedAdmin⟩, 0⟩, ⟨⟨.get 1, Except.ok storedAdmin⟩, 1⟩,
   ⟨⟨.update { storedAdmin with email := some "ada@roster" }, Except.ok ()⟩, 0⟩,
   ⟨⟨.update { storedAdmin with phone := some "42" }, Except.ok ()⟩, 1⟩]

theorem changes_lostUpdates :
    ∀ r ∈ [Request.updateUser mailUpdate, .updateUser phoneUpdate], Changes storedAdmin.id r := by
  intro r hr
  rcases List.mem_cons.1 hr with rfl | hr
  · exact .update rfl rfl (by decide) (rfl : maskFields _ = .ok [.email])
  · rw [List.mem_singleton.1 hr]
    exact .update rfl rfl (by decide) (rfl : maskFields _ = .ok [.phone])

theorem apart_lostUpdates : Apart [.updateUser mailUpdate, .updateUser phoneUpdate] := by
  have hmail : ∀ f, Names (.updateUser mailUpdate) f → f = .email := by
    rintro f ⟨fields, hmask, hf⟩
    cases (rfl : maskFields mailUpdate.updateMask = .ok [.email]).symm.trans hmask
    exact List.mem_singleton.1 hf
  have hphone : ∀ f, Names (.updateUser phoneUpdate) f → f = .phone := by
    rintro f ⟨fields, hmask, hf⟩
    cases (rfl : maskFields phoneUpdate.updateMask = .ok [.phone]).symm.trans hmask
    exact List.mem_singleton.1 hf
  intro i j r r' hi hj hij f hr hr'
  match i, j, hi, hj with
  | 0, 0, _, _ => exact absurd rfl hij
  | 1, 1, _, _ => exact absurd rfl hij
  | 0, 1, rfl, rfl =>
    cases hmail f hr
    cases hphone _ hr'
  | 1, 0, rfl, rfl =>
    cases hphone f hr
    cases hmail _ hr'

/-- Both updates end well, and the address for mail that the first one has written is not there. -/
theorem exists_lost_update :
    ∃ s : System, Runs ⟨adminTable, []⟩ lostTrace s
      ∧ s.calls = [⟨.updateUser mailUpdate, .ended (.ok { storedAdmin with email := some "ada@roster" })⟩,
          ⟨.updateUser phoneUpdate, .ended (.ok { storedAdmin with phone := some "42" })⟩]
      ∧ s.table.get? 1 = some { storedAdmin with phone := some "42" } := by
  -- both calls begin; then each reads, and only after that each writes, notes it and ends
  have begun : Runs ⟨adminTable, []⟩ []
      ⟨adminTable, [.start (.updateUser mailUpdate), .start (.updateUser phoneUpdate)]⟩ :=
    (Runs.refl.step (.begin (.updateUser mailUpdate))).step (.begin (.updateUser phoneUpdate))
  have liveA := begun.step (.go (i := 0) rfl (.close _ (.live _ true)))
  have getA := liveA.step (.go (i := 0) rfl (.close _ (.store (.get 1) _ .epoch)))
  have liveB := getA.step (.go (i := 1) rfl (.close _ (.live _ true)))
  have getB := liveB.step (.go (i := 1) rfl (.close _ (.store (.get 1) _ .epoch)))
  have liveA' := getB.step (.go (i := 0) rfl (.close _ (.live _ true)))
  have updateA := liveA'.step (.go (i := 0) rfl (.close _ (.store (.update _) _ .epoch)))
  have noteA := updateA.step (.go (i := 0) rfl (.close _ (.note _ _)))
  have endA := noteA.step (.go (i := 0) rfl (.finish _ _))
  have liveB' := endA.step (.go (i := 1) rfl (.close _ (.live _ true)))
  have updateB := liveB'.step (.go (i := 1) rfl (.close _ (.store (.update _) _ .epoch)))
  have noteB := updateB.step (.go (i := 1) rfl (.close _ (.note _ _)))
  have endB := noteB.step (.go (i := 1) rfl (.finish _ _))
  exact ⟨_, endB, rfl, rfl⟩

/-- An update can be lost though all have ended well. -/
theorem update_lost : ¬ NothingLost := by
  intro h
  obtain ⟨s, hrun, hcalls, hget⟩ := exists_lost_update
  have hrequests : s.requests = [.updateUser mailUpdate, .updateUser phoneUpdate] := by
    unfold requests
    rw [hcalls]
    rfl
  have hended : ∀ (i : Nat) (q : UpdateUserRequest) (c : Course (.updateUser q)),
      s.calls[i]? = some ⟨.updateUser q, c⟩ → ∃ x, c = .ended (.ok x) := by
    intro i q c hi
    rw [hcalls] at hi
    match i, hi with
    | 0, rfl => exact ⟨_, rfl⟩
    | 1, rfl => exact ⟨_, rfl⟩
  obtain ⟨v, hv, hfields, _⟩ := h adminTable storedAdmin s lostTrace (.perform .empty _ _) rfl hrun
    (by rw [hrequests]; exact changes_lostUpdates) (by rw [hrequests]; exact apart_lostUpdates) hended
  rw [show storedAdmin.id = 1 from rfl, hget] at hv
  cases hv
  -- the address for mail would have to be that of the first update, and there is none
  have hmail : UserField.email.Same _ _ :=
    hfields mailUpdate _ [.email] (by rw [hrequests]; simp) rfl rfl .email List.mem_cons_self
  cases hmail

/-- The update that has written last is there. -/
theorem update_survives_phone :
    ∃ s : System, Runs ⟨adminTable, []⟩ lostTrace s
      ∧ ∃ v, s.table.get? 1 = some v ∧ v.phone = some "42" ∧ v.email = none := by
  obtain ⟨s, hrun, hcalls, hget⟩ := exists_lost_update
  have hrequests : s.requests = [.updateUser mailUpdate, .updateUser phoneUpdate] := by
    unfold requests
    rw [hcalls]
    rfl
  obtain ⟨v, hv, hwrote, _, hfields, _⟩ := update_survives (u := storedAdmin) (.perform .empty _ _) rfl
    hrun (by rw [hrequests]; exact changes_lostUpdates)
    (by rw [hrequests]; exact apart_lostUpdates)
  refine ⟨s, hrun, v, hv, ?_, ?_⟩
  · have hlast : ¬ Overtaken 1 lostTrace :=
      not_overtaken_of_last (lostTrace.take 3) _ (by decide)
    exact hfields 1 phoneUpdate _ [.phone] (by rw [hrequests]; rfl)
      (hwrote 1 phoneUpdate _ (by rw [hcalls]; rfl)) hlast rfl rfl .phone List.mem_cons_self
  · rw [show storedAdmin.id = 1 from rfl, hget] at hv
    cases hv
    rfl

end System

end UserDirectory.Service
