import Mathlib.Data.List.Pairwise
import UserDirectory.Proofs.SortedMap
import UserDirectory.Proofs.Store.Relational.Conditions
import UserDirectory.Proofs.Store.Upkeep
/-!
# The rows of a table

The rows of a database mirror a table in memory when they are those of its users, in any order.  Each
operation, as a statement on the rows, gives what it gives on the table and leaves rows that mirror
again.

Main statements:
  * `eq_map_rowOf_of_ordered` and `toUsers_of_shows`: what comes for rows in order;
  * `Mirrors.insert`, `Mirrors.erase`: rows put in and taken out;
  * `Mirrors.answers`: one operation on both sides.
-/

namespace UserDirectory.Store.Relational

open UserDirectory.Time (Instant)

/-- Whether a user can be stored without loss: there is a number, and the row is exact. -/
def isStorable (u : User) : Bool := u.id ≠ 0 && isExact u

theorem isStorable_iff {u : User} : isStorable u = true ↔ u.id ≠ 0 ∧ isExact u = true := by
  unfold isStorable
  rw [Bool.and_eq_true, decide_eq_true_eq]

theorem isSome_createDate {u : User} (h : isStorable u = true) : u.createDate.isSome = true :=
  (isExact_iff.1 (isStorable_iff.1 h).2).1

/-- The rows of a database are those of the users in a table. -/
structure Mirrors (t : Table) (rows : List Row) : Prop where
  perm : rows.Perm (t.values.map rowOf)
  tidy : t.Tidy
  storable : ∀ u ∈ t.values, isStorable u = true

/-! ## §1. Rows that come back. -/

/-- What comes for the rows of some users is taken for these users. -/
theorem toUsers_of_shows {us : List User} {cells : List Cells} (hus : ∀ u ∈ us, isStorable u = true)
    (h : List.Forall₂ Row.Shows (us.map rowOf) cells) :
    ∃ rs, readRows cells = .ok rs ∧ toUsers rs = .ok us := by
  induction us generalizing cells with
  | nil =>
    cases h
    exact ⟨[], rfl, rfl⟩
  | cons u us ih =>
    cases h with
    | cons hfirst hmore =>
      obtain ⟨r, hr, hu⟩ := toUser_of_shows (isStorable_iff.1 (hus u List.mem_cons_self)).2 hfirst
      obtain ⟨rs, hrs, hrest⟩ := ih (fun v hv => hus v (List.mem_cons_of_mem _ hv)) hmore
      refine ⟨r :: rs, ?_, ?_⟩
      · simp only [readRows, hr, hrs, bind, Except.bind, pure, Except.pure]
      · simp only [toUsers, hu, hrest, bind, Except.bind, pure, Except.pure]

/-- Rows that come ordered by number come in the order of the table. -/
theorem eq_map_rowOf_of_ordered {us : List User} {found : List Row}
    (hus : us.Pairwise fun u v => u.id < v.id) (hperm : found.Perm (us.map rowOf))
    (hordered : found.Pairwise Row.precedes) : found = us.map rowOf := by
  have hprecedes : ∀ u v : User, Row.precedes (rowOf u) (rowOf v) ↔ ¬ v.id < u.id := by
    intro u v
    show decide ((v.id.toNat : Int) < u.id.toNat) = false ↔ _
    rw [decide_eq_false_iff_not, cast_toNat_lt]
  -- two permutations that are both ordered are the same, since no two numbers are equal
  have hmap : (us.map rowOf).Pairwise Row.precedes := by
    rw [List.pairwise_map]
    exact hus.imp fun hlt => (hprecedes _ _).2 (Std.not_gt_of_lt hlt)
  refine hperm.eq_of_pairwise (fun r r' hr hr' h h' => ?_) hordered hmap
  obtain ⟨u, hu, rfl⟩ := List.mem_map.1 (hperm.mem_iff.1 hr)
  obtain ⟨v, hv, rfl⟩ := List.mem_map.1 hr'
  have huv := (hprecedes u v).1 h
  have hvu := (hprecedes v u).1 h'
  -- of two users of the table, one comes first unless they are the same
  have hsymm : Std.Symm fun u v : User => u.id < v.id ∨ v.id < u.id := ⟨fun _ _ h => h.symm⟩
  have hall : us.Pairwise fun u v => u.id < v.id ∨ v.id < u.id := hus.imp fun hlt => .inl hlt
  rcases Classical.em (u = v) with heq | hne
  · rw [heq]
  · rcases hall.forall hu hv hne with hlt | hlt
    · exact absurd hlt hvu
    · exact absurd hlt huv

/-! ## §2. Questions about mirrored rows. -/

/-- The rules of the columns allow the rows of users that can be stored. -/
theorem all_isAllowed_of_perm {us : List User} {rows : List Row}
    (hus : ∀ u ∈ us, isStorable u = true) (hperm : rows.Perm (us.map rowOf)) :
    rows.all Row.isAllowed = true := by
  rw [hperm.all_eq, List.all_map, List.all_eq_true]
  intro u hu
  exact isAllowed_rowOf (isStorable_iff.1 (hus u hu)).1 (isSome_createDate (hus u hu))

namespace Mirrors

variable {t : Table} {rows : List Row} {u : User} {id : UInt32}

theorem rows_allowed (h : Mirrors t rows) : rows.all Row.isAllowed = true :=
  all_isAllowed_of_perm h.storable h.perm

theorem rows_apart (h : Mirrors t rows) : areApart rows = true := by
  rw [areApart_of_perm h.perm, areApart_map_rowOf]
  exact h.tidy.values_apart

theorem any (h : Mirrors t rows) (p : Row → Bool) : rows.any p = t.values.any fun u => p (rowOf u) := by
  rw [h.perm.any_eq, List.any_map]
  rfl

theorem filter (h : Mirrors t rows) {p : Row → Bool} {p' : User → Bool}
    (hp : ∀ u ∈ t.values, p (rowOf u) = p' u) :
    (rows.filter p).Perm ((t.values.filter p').map rowOf) := by
  refine (h.perm.filter p).trans ?_
  rw [List.filter_map]
  exact .of_eq (congrArg _ (List.filter_congr hp))

/-- The user with a number is alone with it. -/
theorem filter_id_of_get? (h : Mirrors t rows) (hu : t.get? id = some u) :
    t.values.filter (fun v => v.id = id) = [u] := by
  rw [← h.tidy.values_filter fun k => k = id]
  have hone : (SortedMap.filter t fun e => decide (e.1 = id)).entries = [(id, u)] := by
    refine SortedMap.entries_eq_of_mem_iff (t.ascending.filter _) (List.pairwise_singleton _ _)
      fun e => ?_
    rw [List.mem_singleton]
    show e ∈ t.entries.filter _ ↔ _
    rw [List.mem_filter, decide_eq_true_eq]
    constructor
    · rintro ⟨hmem, rfl⟩
      have hget := (t.mem_entries_iff e.1 e.2).1 hmem
      rw [hu] at hget
      exact Prod.ext rfl (Option.some.inj hget).symm
    · rintro rfl
      exact ⟨(t.mem_entries_iff id u).2 hu, rfl⟩
  unfold SortedMap.values
  rw [hone]
  rfl

theorem filter_id_of_none (h : Mirrors t rows) (hnone : t.get? id = none) :
    t.values.filter (fun v => v.id = id) = [] := by
  refine List.filter_eq_nil_iff.2 fun v hv hid => ?_
  rw [decide_eq_true_eq] at hid
  exact h.tidy.id_ne_of_none hnone hv hid

/-- There is a row of a number when there is a user with it. -/
theorem any_id (h : Mirrors t rows) : (t.values.any fun v => v.id = id) = SortedMap.contains t id := by
  rw [Bool.eq_iff_iff, List.any_eq_true, Table.contains_iff]
  constructor
  · rintro ⟨v, hv, hid⟩
    rw [decide_eq_true_eq] at hid
    exact ⟨v, hid ▸ h.tidy.get?_id hv⟩
  · rintro ⟨v, hv⟩
    exact ⟨v, Table.mem_values_iff.2 ⟨id, hv⟩, decide_eq_true (h.tidy.id_eq id v hv)⟩

/-! ## §3. Rows that change. -/

theorem values_insert_perm (t : Table) (u : User) :
    (SortedMap.insert t u.id u).values.Perm (u :: (SortedMap.erase t u.id).values) :=
  (SortedMap.insert_entries_perm t u.id u).map Prod.snd

theorem values_perm_of_get? {t : Table} {old : User} (hold : t.get? id = some old) :
    t.values.Perm (old :: (SortedMap.erase t id).values) :=
  (SortedMap.entries_perm_of_get? hold).map Prod.snd

/-- The users under other numbers. -/
theorem values_erase (h : Mirrors t rows) (id : UInt32) :
    (SortedMap.erase t id).values = t.values.filter fun v => v.id ≠ id :=
  h.tidy.values_filter fun k => k ≠ id

/-- A table may hold the row of a user beside those under other numbers when the name is free. -/
theorem areApart_cons (h : Mirrors t rows) (u : User) :
    areApart ((u :: (SortedMap.erase t u.id).values).map rowOf) = t.isFree u.id u.username := by
  rw [Bool.eq_iff_iff, areApart_map_rowOf, List.pairwise_cons, h.values_erase]
  unfold Table.isFree
  rw [List.all_eq_true]
  constructor
  · -- the rows are apart, so nobody under another number has the name
    rintro ⟨hfirst, _⟩ v hv
    rw [Bool.or_eq_true, decide_eq_true_eq, decide_eq_true_eq]
    by_cases hid : v.id = u.id
    · exact .inl hid
    · have hother := hfirst v (List.mem_filter.2 ⟨hv, by rw [decide_eq_true_eq]; exact hid⟩)
      exact .inr hother.2.symm
  · -- the name is free; that the others are apart from each other is known
    intro hall
    refine ⟨fun v hv => ?_, h.tidy.values_apart.filter _⟩
    obtain ⟨hmem, hid⟩ := List.mem_filter.1 hv
    have hne : v.id ≠ u.id := of_decide_eq_true hid
    have hfree := hall v hmem
    rw [Bool.or_eq_true, decide_eq_true_eq, decide_eq_true_eq] at hfree
    exact ⟨hne.symm, (hfree.resolve_left hne).symm⟩

/-- Users that can be stored, after one of them has changed. -/
theorem storable_cons_erase (h : Mirrors t rows) (hu : isStorable u = true) :
    ∀ v ∈ u :: (SortedMap.erase t u.id).values, isStorable v = true := by
  intro v hv
  rcases List.mem_cons.1 hv with rfl | hv
  · exact hu
  · rw [h.values_erase] at hv
    exact h.storable v (List.mem_of_mem_filter hv)

/-- The rows of a table with a user put in mirror it. -/
theorem insert {rows' : List Row} (h : Mirrors t rows) (hu : isStorable u = true)
    (hfree : t.isFree u.id u.username = true)
    (hperm : rows'.Perm ((u :: (SortedMap.erase t u.id).values).map rowOf)) :
    Mirrors (SortedMap.insert t u.id u) rows' where
  perm := hperm.trans ((values_insert_perm t u).symm.map rowOf)
  tidy := h.tidy.insert hfree rfl rfl
  storable v hv := h.storable_cons_erase hu v ((values_insert_perm t u).mem_iff.1 hv)

/-- The rows of a table without a user mirror it. -/
theorem erase (h : Mirrors t rows) (id : UInt32) {p : Row → Bool}
    (hp : ∀ v, p (rowOf v) = decide (v.id = id)) :
    Mirrors (SortedMap.erase t id) (rows.filter fun r => !p r) where
  perm := by
    rw [h.values_erase]
    refine h.filter fun v _ => ?_
    rw [hp, decide_not]
  tidy := h.tidy.erase id
  storable := by
    intro v hv
    rw [h.values_erase] at hv
    exact h.storable v (List.mem_of_mem_filter hv)

/-- The rows that an update leaves, if there is a user to update. -/
theorem updatedRows_perm {old : User} (h : Mirrors t rows) (hdate : u.createDate.isSome = true)
    (hold : t.get? u.id = some old) :
    (Query.updatedRows (updateQuery u) updateAssignments keyCondition rows).Perm
      ((u :: (SortedMap.erase t u.id).values).map rowOf) := by
  -- first row by row, then with the one that has changed in front
  have hrows : (Query.updatedRows (updateQuery u) updateAssignments keyCondition rows).Perm
      ((t.values.map fun v => if v.id = u.id then u else v).map rowOf) := by
    refine (h.perm.map _).trans (.of_eq ?_)
    rw [List.map_map, List.map_map]
    exact List.map_congr_left fun v _ => update_rowOf hdate
  refine hrows.trans (.map _ ?_)
  refine ((values_perm_of_get? hold).map _).trans (.of_eq ?_)
  -- the user with the number is replaced, and no other has it
  rw [List.map_cons, if_pos (h.tidy.id_eq _ _ hold)]
  refine congrArg _ ((List.map_congr_left fun v hv => ?_).trans (List.map_id _))
  rw [h.values_erase, List.mem_filter, decide_eq_true_eq] at hv
  exact if_neg hv.2

/-- An update changes no row if there is no user to update. -/
theorem updatedRows_of_none (h : Mirrors t rows) (hdate : u.createDate.isSome = true)
    (hnone : t.get? u.id = none) :
    Query.updatedRows (updateQuery u) updateAssignments keyCondition rows = rows := by
  unfold Query.updatedRows
  refine (List.map_congr_left fun r hr => ?_).trans (List.map_id _)
  obtain ⟨v, hv, rfl⟩ := List.mem_map.1 (h.perm.mem_iff.1 hr)
  rw [update_rowOf hdate, if_neg (h.tidy.id_ne_of_none hnone hv)]
  rfl

end Mirrors

end UserDirectory.Store.Relational
