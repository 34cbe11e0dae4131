import UserDirectory.Store.Memory
/-!
# What keeps a table in order

Only three operations change a table, each in one way.  From this it follows what every operation
keeps: each user stands under their own number, and no two have one name.

Main statements:
  * `perform_cases`: all that an operation can do to a table;
  * `Tidy.perform`: an orderly table stays orderly, whatever is asked of it;
  * `get?_perform_of_none`: a number that is not there only comes with a new user;
  * `Tidy.values_ascending`, `Tidy.values_apart`: the users of an orderly table, in a row.
-/

namespace UserDirectory.Store.Table

open UserDirectory.Time (Instant)

variable {t : Table} {k id : UInt32} {u v : User} {name : String}

/-! ## §1. What stands in a table. -/

theorem mem_values_iff : u ∈ t.values ↔ ∃ k, t.get? k = some u := by
  unfold SortedMap.values
  rw [List.mem_map]
  constructor
  · rintro ⟨⟨k, v⟩, hmem, rfl⟩
    exact ⟨k, (t.mem_entries_iff k v).1 hmem⟩
  · rintro ⟨k, hk⟩
    exact ⟨(k, u), (t.mem_entries_iff k u).2 hk, rfl⟩

theorem contains_iff : t.contains k = true ↔ ∃ u, t.get? k = some u := by
  unfold SortedMap.contains
  rw [Option.isSome_iff_exists]

theorem contains_eq_false_iff : t.contains k = false ↔ t.get? k = none := by
  unfold SortedMap.contains
  rw [Option.isSome_eq_false_iff, Option.isNone_iff_eq_none]

/-- What is found under a number is who stands there. -/
theorem fetch_eq_ok_iff : t.fetch k = .ok u ↔ t.get? k = some u := by
  unfold fetch
  cases t.get? k with
  | none => exact ⟨nofun, nofun⟩
  | some v => exact ⟨fun h => congrArg some (Except.ok.inj h), fun h => congrArg Except.ok (Option.some.inj h)⟩

/-- A name is free for a number when every other user with the name has that number. -/
theorem isFree_iff :
    t.isFree id name = true ↔ ∀ k u, t.get? k = some u → u.id = id ∨ u.username ≠ name := by
  unfold isFree
  rw [List.all_eq_true]
  constructor
  · intro h k u hk
    simpa using h u (mem_values_iff.2 ⟨k, hk⟩)
  · intro h u hu
    obtain ⟨k, hk⟩ := mem_values_iff.1 hu
    simpa using h k u hk

/-! ## §2. What an operation can do. -/

/-- All that adding a user can come to. -/
theorem perform_add_cases (t : Table) (now : Instant) (u : User) :
    (t.get? u.id = none ∧ t.isFree u.id u.username = true
      ∧ t.perform now (.add u) = (.ok (), t.insert u.id (withDefaults u now)))
    ∨ ∃ e, t.perform now (.add u) = (.error e, t) := by
  simp only [perform, add]
  split
  · exact .inr ⟨_, rfl⟩
  · rename_i hno
    split
    · rename_i hfree
      exact .inl ⟨contains_eq_false_iff.1 (by simpa using hno), hfree, rfl⟩
    · exact .inr ⟨_, rfl⟩

/-- All that replacing a user can come to. -/
theorem perform_update_cases (t : Table) (now : Instant) (u : User) :
    (∃ old, t.get? u.id = some old ∧ t.isFree u.id u.username = true
      ∧ t.perform now (.update u) = (.ok (), t.insert u.id u))
    ∨ ∃ e, t.perform now (.update u) = (.error e, t) := by
  simp only [perform, replace]
  split
  · rename_i hyes
    obtain ⟨old, hold⟩ := contains_iff.1 hyes
    split
    · rename_i hfree
      exact .inl ⟨old, hold, hfree, rfl⟩
    · exact .inr ⟨_, rfl⟩
  · exact .inr ⟨_, rfl⟩

/-- A number that is there cannot be added. -/
theorem perform_add_of_contains (now : Instant) (hyes : t.contains u.id = true) :
    t.perform now (.add u) = (.error (.alreadyExists u.id), t) := by
  simp only [perform, add, hyes, if_true]
  rfl

/-- A new user cannot be added under a name that is taken. -/
theorem perform_add_of_taken (now : Instant) (hnone : t.get? u.id = none)
    (htaken : t.isFree u.id u.username = false) :
    t.perform now (.add u) = (.error (.usernameTaken u.username), t) := by
  simp only [perform, add, contains_eq_false_iff.2 hnone, htaken, Bool.false_eq_true, if_false]
  rfl

/-- A new user can be added under a name that is free. -/
theorem perform_add_of_isFree (now : Instant) (hnone : t.get? u.id = none)
    (hfree : t.isFree u.id u.username = true) :
    t.perform now (.add u) = (.ok (), t.insert u.id (withDefaults u now)) := by
  simp only [perform, add, contains_eq_false_iff.2 hnone, hfree, Bool.false_eq_true, if_false,
    if_true]
  rfl

/-- A user who is not there cannot be replaced. -/
theorem perform_update_of_none (now : Instant) (hnone : t.get? u.id = none) :
    t.perform now (.update u) = (.error (.notFound u.id), t) := by
  simp only [perform, replace, contains_eq_false_iff.2 hnone, Bool.false_eq_true, if_false]
  rfl

/-- A stored user cannot be replaced by one whose name is taken. -/
theorem perform_update_of_taken {old : User} (now : Instant) (hold : t.get? u.id = some old)
    (htaken : t.isFree u.id u.username = false) :
    t.perform now (.update u) = (.error (.usernameTaken u.username), t) := by
  have hyes : t.contains u.id = true := contains_iff.2 ⟨old, hold⟩
  simp only [perform, replace, hyes, htaken, Bool.false_eq_true, if_false, if_true]
  rfl

/-- A stored user can be replaced by one whose name is free. -/
theorem perform_update_of_isFree {old : User} {now : Instant} (hold : t.get? u.id = some old)
    (hfree : t.isFree u.id u.username = true) :
    t.perform now (.update u) = (.ok (), t.insert u.id u) := by
  have hyes : t.contains u.id = true := contains_iff.2 ⟨old, hold⟩
  simp only [perform, replace, hyes, hfree, if_true]
  rfl

/-- A user who is not there cannot be removed. -/
theorem perform_delete_of_none (now : Instant) (hnone : t.get? id = none) :
    t.perform now (.delete id) = (.error (.notFound id), t) := by
  simp only [perform, remove, contains_eq_false_iff.2 hnone, Bool.false_eq_true, if_false]
  rfl

/-- A stored user can be removed. -/
theorem perform_delete_of_get? {old : User} (now : Instant) (hold : t.get? id = some old) :
    t.perform now (.delete id) = (.ok (), t.erase id) := by
  have hyes : t.contains id = true := contains_iff.2 ⟨old, hold⟩
  simp only [perform, remove, hyes, if_true]
  rfl

/-- All that removing a user can come to. -/
theorem perform_delete_cases (t : Table) (now : Instant) (id : UInt32) :
    (∃ old, t.get? id = some old ∧ t.perform now (.delete id) = (.ok (), t.erase id))
    ∨ ∃ e, t.perform now (.delete id) = (.error e, t) := by
  simp only [perform, remove]
  split
  · rename_i hyes
    obtain ⟨old, hold⟩ := contains_iff.1 hyes
    exact .inl ⟨old, hold, rfl⟩
  · exact .inr ⟨_, rfl⟩

/-- All that an operation can do to a table. -/
theorem perform_cases (t : Table) (now : Instant) (op : Operation) :
    (t.perform now op).2 = t
    ∨ (∃ u, op = .add u ∧ t.get? u.id = none ∧ t.isFree u.id u.username = true
        ∧ t.perform now (.add u) = (.ok (), t.insert u.id (withDefaults u now)))
    ∨ (∃ u old, op = .update u ∧ t.get? u.id = some old ∧ t.isFree u.id u.username = true
        ∧ t.perform now (.update u) = (.ok (), t.insert u.id u))
    ∨ (∃ id, op = .delete id ∧ t.perform now (.delete id) = (.ok (), t.erase id)) := by
  cases op with
  | add u =>
    obtain ⟨hnone, hfree, hdone⟩ | ⟨e, hfailed⟩ := perform_add_cases t now u
    · exact .inr (.inl ⟨u, rfl, hnone, hfree, hdone⟩)
    · exact .inl (by rw [hfailed])
  | update u =>
    obtain ⟨old, hold, hfree, hdone⟩ | ⟨e, hfailed⟩ := perform_update_cases t now u
    · exact .inr (.inr (.inl ⟨u, old, rfl, hold, hfree, hdone⟩))
    · exact .inl (by rw [hfailed])
  | delete id =>
    obtain ⟨_, _, hdone⟩ | ⟨e, hfailed⟩ := perform_delete_cases t now id
    · exact .inr (.inr (.inr ⟨id, rfl, hdone⟩))
    · exact .inl (by rw [hfailed])
  | get id => exact .inl rfl
  | list f => exact .inl rfl
  | listByRole r => exact .inl rfl
  | contains id => exact .inl rfl
  | count => exact .inl rfl

/-- A number that is not there only comes with a new user, who is then added. -/
theorem get?_perform_of_none {now : Instant} {op : Operation} (h : t.get? k = none)
    (hnew : (t.perform now op).2.get? k ≠ none) :
    ∃ u, op = .add u ∧ u.id = k ∧ (t.perform now (.add u)).1 = .ok () := by
  obtain hsame | ⟨u, rfl, _, _, hdone⟩ | ⟨u, old, rfl, hold, _, hdone⟩ | ⟨id, rfl, hdone⟩ :=
    perform_cases t now op
  · rw [hsame] at hnew
    exact absurd h hnew
  · -- a user has been added, under no other number
    refine ⟨u, rfl, ?_, by rw [hdone]⟩
    rw [hdone] at hnew
    by_cases hk : k = u.id
    · exact hk.symm
    · exact absurd (by rw [SortedMap.get?_insert, if_neg hk, h]) hnew
  · -- only a user who was there is replaced
    rw [hdone] at hnew
    by_cases hk : k = u.id
    · rw [hk, hold] at h
      cases h
    · exact absurd (by rw [SortedMap.get?_insert, if_neg hk, h]) hnew
  · -- who is removed is not there
    rw [hdone] at hnew
    refine absurd ?_ hnew
    rw [SortedMap.get?_erase]
    split
    · rfl
    · exact h

/-! ## §3. Order. -/

/-- Each user stands under their own number, and no two have one name. -/
structure Tidy (t : Table) : Prop where
  id_eq : ∀ k u, t.get? k = some u → u.id = k
  name_inj : ∀ k l u v, t.get? k = some u → t.get? l = some v → u.username = v.username → k = l

theorem Tidy.empty : Tidy SortedMap.empty where
  id_eq _ _ h := by cases h
  name_inj _ _ _ _ h := by cases h

/-- A user whose name is free for their number can be put there. -/
theorem Tidy.insert (ht : t.Tidy) (hfree : t.isFree u.id u.username = true)
    (hid : v.id = u.id) (hname : v.username = u.username) : Tidy (t.insert u.id v) where
  id_eq k w hw := by
    rw [SortedMap.get?_insert] at hw
    split at hw
    · rename_i hk
      cases hw
      rw [hid, hk]
    · exact ht.id_eq k w hw
  name_inj k l a b ha hb hab := by
    -- the user under another number does not have the name, as the name is free
    have key : ∀ k a, k ≠ u.id → t.get? k = some a → a.username ≠ v.username := by
      intro k a hk ha hname'
      rcases isFree_iff.1 hfree k a ha with hid' | hne
      · exact hk (by rw [← ht.id_eq k a ha, hid'])
      · exact hne (by rw [hname', hname])
    rw [SortedMap.get?_insert] at ha hb
    split at ha <;> split at hb <;> rename_i hk hl
    · rw [hk, hl]
    · cases ha
      exact absurd hab.symm (key l b hl hb)
    · cases hb
      exact absurd hab (key k a hk ha)
    · exact ht.name_inj k l a b ha hb hab

theorem Tidy.erase (ht : t.Tidy) (id : UInt32) : Tidy (t.erase id) := by
  have key : ∀ k u, (t.erase id).get? k = some u → t.get? k = some u := by
    intro k u h
    rw [SortedMap.get?_erase] at h
    split at h
    · cases h
    · exact h
  exact ⟨fun k u h => ht.id_eq k u (key k u h),
    fun k l u v hk hl => ht.name_inj k l u v (key k u hk) (key l v hl)⟩

/-- An orderly table stays orderly, whatever is asked of it. -/
theorem Tidy.perform (ht : t.Tidy) (now : Instant) (op : Operation) :
    Tidy (t.perform now op).2 := by
  obtain hsame | ⟨u, rfl, _, hfree, hdone⟩ | ⟨u, old, rfl, _, hfree, hdone⟩ | ⟨id, rfl, hdone⟩ :=
    perform_cases t now op
  · rw [hsame]
    exact ht
  · rw [hdone]
    exact ht.insert hfree rfl rfl
  · rw [hdone]
    exact ht.insert hfree rfl rfl
  · rw [hdone]
    exact ht.erase id

/-- The tables that a store in memory can come to hold. -/
inductive Reachable : Table → Prop
  | empty : Reachable SortedMap.empty
  | perform {t : Table} (h : Reachable t) (now : Instant) (op : Operation) :
      Reachable (t.perform now op).2

/-- Every table that a store in memory can come to hold is orderly. -/
theorem Reachable.tidy (h : Reachable t) : t.Tidy := by
  induction h with
  | empty => exact Tidy.empty
  | perform _ now op ih => exact ih.perform now op

/-! ## §4. The users in order. -/

/-- A user of an orderly table is found under their number. -/
theorem Tidy.get?_id (ht : t.Tidy) (hu : u ∈ t.values) : t.get? u.id = some u := by
  obtain ⟨k, hk⟩ := mem_values_iff.1 hu
  rw [ht.id_eq k u hk]
  exact hk

/-- No user has a number under which there is none. -/
theorem Tidy.id_ne_of_none (ht : t.Tidy) (hnone : t.get? id = none) (hu : u ∈ t.values) :
    u.id ≠ id := by
  intro heq
  have hget := ht.get?_id hu
  rw [heq, hnone] at hget
  cases hget

/-- The users stand in the order of their numbers. -/
theorem Tidy.values_ascending (ht : t.Tidy) : t.values.Pairwise fun u v => u.id < v.id := by
  unfold SortedMap.values
  rw [List.pairwise_map]
  refine t.ascending.imp_of_mem fun {a b} ha hb hlt => ?_
  rw [ht.id_eq a.1 a.2 ((t.mem_entries_iff _ _).1 ha), ht.id_eq b.1 b.2 ((t.mem_entries_iff _ _).1 hb)]
  exact hlt

/-- No two users have one number or one name. -/
theorem Tidy.values_apart (ht : t.Tidy) :
    t.values.Pairwise fun u v => u.id ≠ v.id ∧ u.username ≠ v.username := by
  refine ht.values_ascending.imp_of_mem fun {u v} hu hv hlt => ?_
  have hne : u.id ≠ v.id := fun h => Std.lt_irrefl (h ▸ hlt)
  exact ⟨hne, fun hname => hne (ht.name_inj _ _ u v (ht.get?_id hu) (ht.get?_id hv) hname)⟩

/-- The users under some of the keys are those with some of the numbers. -/
theorem Tidy.values_filter (ht : t.Tidy) (p : UInt32 → Bool) :
    (SortedMap.filter t fun e => p e.1).values = t.values.filter fun u => p u.id := by
  show (t.entries.filter fun e => p e.1).map Prod.snd = (t.entries.map Prod.snd).filter _
  rw [List.filter_map]
  refine congrArg _ (List.filter_congr fun e he => ?_)
  rw [← ht.id_eq e.1 e.2 ((t.mem_entries_iff _ _).1 he)]
  rfl

/-- A listing starts after the cursor. -/
theorem Tidy.after_eq_filter (ht : t.Tidy) (cursor : Option UInt32) :
    t.after cursor = t.values.filter fun u => ListFilter.asks cursor fun id => id < u.id := by
  cases cursor with
  | none => exact (List.filter_eq_self.2 fun _ _ => rfl).symm
  | some id => exact ht.values_filter fun k => id < k

end UserDirectory.Store.Table

namespace UserDirectory.Store

/-- A page is the beginning of the listing. -/
theorem ListFilter.firstPage_prefix {α : Type} (f : ListFilter) (l : List α) :
    f.firstPage l <+: l := by
  unfold ListFilter.firstPage
  cases f.limit with
  | none => exact List.prefix_rfl
  | some n => exact List.take_prefix n l

end UserDirectory.Store
