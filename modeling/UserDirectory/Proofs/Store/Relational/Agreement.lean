import UserDirectory.Proofs.Store.Relational.Mirroring
/-!
# One operation on both sides

Main statements:
  * `Mirrors.agrees`: on a table and on rows that mirror it, an operation gives the same and leaves
    rows that mirror the table again;
  * `perform_of_queryOf_error`: what is not sent to a database is refused in memory, for the same
    reason.
-/

namespace UserDirectory.Store.Relational

open UserDirectory.Time (Instant)

/-- Whether an operation stores and compares only what a database keeps without loss. -/
def isExactOperation (now : Instant) : Operation → Bool
  | .add u => isStorable (withDefaults u now)
  | .update u => isExact u
  | .list f => isExactFilter f
  | _ => true

/-- An operation and its statement do the same: what they give, and what they leave. -/
structure Agrees (t : Table) (rows : List Row) (now : Instant) (op : Operation) (q : Query)
    (reply : Reply) : Prop where
  outcome : interpret op reply = (t.perform now op).1
  mirrors : Mirrors (t.perform now op).2 (q.after rows)

variable {t : Table} {rows : List Row} {now : Instant} {u : User} {id : UInt32}
  {reply : Reply}

/-- What has to be seen about an operation: what it does in memory, that its reply means the same, and
that the rows are those of the table again. -/
theorem Agrees.of_perform {t t' : Table} {rows : List Row} {now : Instant} {op : Operation}
    {q : Query} {reply : Reply} {outcome : op.Outcome} (hmemory : t.perform now op = (outcome, t'))
    (houtcome : interpret op reply = outcome) (hmirrors : Mirrors t' (q.after rows)) :
    Agrees t rows now op q reply where
  outcome := by
    rw [hmemory]
    exact houtcome
  mirrors := by
    rw [hmemory]
    exact hmirrors

/-! ## §1. Adding. -/

/-- A row is apart from others when none of them has its number and none its name. -/
theorem all_isApart (r : Row) (rows : List Row) :
    rows.all r.isApart = (!rows.any (r.agrees .id) && !rows.any (r.agrees .username)) := by
  induction rows with
  | nil => rfl
  | cons r' rows ih =>
    rw [List.all_cons, List.any_cons, List.any_cons, ih]
    unfold Row.isApart
    cases r.agrees .id r' <;> cases r.agrees .username r' <;> simp

theorem Mirrors.any_agrees_id (h : Mirrors t rows) (u : User) :
    rows.any ((rowOf u).agrees .id) = SortedMap.contains t u.id := by
  rw [h.any, ← h.any_id]
  refine congrArg _ (funext fun v => ?_)
  rw [agrees_id, decide_eq_decide]
  exact eq_comm

/-- A name that stands in no row is free. -/
theorem Mirrors.any_agrees_username (h : Mirrors t rows) (hnone : t.get? u.id = none) :
    rows.any ((rowOf u).agrees .username) = !t.isFree u.id u.username := by
  have hfree : t.isFree u.id u.username
      = !(t.values.any fun v => (rowOf u).agrees .username (rowOf v)) := by
    unfold Table.isFree
    rw [List.not_any_eq_all_not, Bool.eq_iff_iff, List.all_eq_true, List.all_eq_true]
    refine forall₂_congr fun v hv => ?_
    rw [decide_eq_false (h.tidy.id_ne_of_none hnone hv), Bool.false_or, agrees_username,
      decide_eq_true_eq, Bool.not_eq_true', decide_eq_false_iff_not]
    exact ne_comm
  rw [h.any, hfree, Bool.not_not]

/-- The statement that adds a user. -/
def addQuery (u : User) : Query := ⟨.insert, parametersOf u⟩

/-- What the database does when a user is added. -/
theorem Mirrors.replies_add (h : Mirrors t rows) (hu : isStorable u = true)
    (hreply : (addQuery u).Replies rows reply) :
    (SortedMap.contains t u.id = true ∧ reply = .done (.numbers []) 0
      ∧ (addQuery u).after rows = rows)
    ∨ (t.get? u.id = none ∧ t.isFree u.id u.username = false
      ∧ reply.IsRefusal (· = uniqueViolation) ∧ (addQuery u).after rows = rows)
    ∨ (t.get? u.id = none ∧ t.isFree u.id u.username = true
      ∧ reply = .done (.numbers [some (u.id.toNat : Int)]) 1
      ∧ (addQuery u).after rows = rowOf u :: rows) := by
  have hallowed := isAllowed_rowOf (isStorable_iff.1 hu).1 (isSome_createDate hu)
  have hafter : (addQuery u).after rows = if (rowOf u).isAllowed && rows.all (rowOf u).isApart
      then rowOf u :: rows else rows := rfl
  change (if (rowOf u).isAllowed = false then _ else
    if rows.any ((rowOf u).agrees .id) = true then reply = .done (.numbers []) 0
    else if rows.any ((rowOf u).agrees .username) = true then
      reply.IsRefusal (· = uniqueViolation)
    else reply = .done (.numbers [some (u.id.toNat : Int)]) 1) at hreply
  rw [hallowed, Bool.true_and, all_isApart, h.any_agrees_id] at hafter
  rw [hallowed, if_neg (by decide), h.any_agrees_id] at hreply
  cases hcontains : SortedMap.contains t u.id with
  | true =>
    rw [hcontains] at hreply hafter
    exact .inl ⟨rfl, hreply, hafter⟩
  | false =>
    have hnone := Table.contains_eq_false_iff.1 hcontains
    rw [hcontains, h.any_agrees_username hnone] at hreply hafter
    cases hfree : t.isFree u.id u.username with
    | true =>
      rw [hfree] at hreply hafter
      exact .inr (.inr ⟨hnone, rfl, hreply, hafter⟩)
    | false =>
      rw [hfree] at hreply hafter
      exact .inr (.inl ⟨hnone, rfl, hreply, hafter⟩)

theorem Mirrors.agrees_add (h : Mirrors t rows) (hu : isStorable (withDefaults u now) = true)
    (hreply : (addQuery (withDefaults u now)).Replies rows reply) :
    Agrees t rows now (.add u) (addQuery (withDefaults u now)) reply := by
  rcases h.replies_add hu hreply with ⟨hcontains, rfl, hafter⟩
    | ⟨hnone, hfree, ⟨_, reason, rfl, rfl⟩, hafter⟩ | ⟨hnone, hfree, rfl, hafter⟩
  · refine .of_perform (Table.perform_add_of_contains (u := u) now hcontains) rfl ?_
    rw [hafter]
    exact h
  · refine .of_perform (Table.perform_add_of_taken (u := u) now hnone hfree) rfl ?_
    rw [hafter]
    exact h
  · refine .of_perform (Table.perform_add_of_isFree (u := u) now hnone hfree) rfl ?_
    rw [hafter]
    -- nobody is erased, since nobody has the number
    refine h.insert hu hfree ?_
    rw [SortedMap.erase_of_get?_eq_none hnone]
    exact h.perm.cons _

/-! ## §2. Changing and removing. -/

/-- The reply to an update that leaves rows that the columns allow. -/
theorem Query.Replies.of_allowed {changed : List Row} (hreply : (updateQuery u).Replies rows reply)
    (hchanged : Query.updatedRows (updateQuery u) updateAssignments keyCondition rows = changed)
    (hallowed : changed.all Row.isAllowed = true) :
    if areApart changed = false then reply.IsRefusal (· = uniqueViolation)
    else ∃ shown, reply = .done shown
      (rows.filter fun r => keyCondition.holds (updateQuery u) r).length := by
  subst hchanged
  change (if (Query.updatedRows (updateQuery u) updateAssignments keyCondition rows).all
    Row.isAllowed = false then _ else _) at hreply
  rw [hallowed, if_neg (by decide)] at hreply
  exact hreply

/-- The rows after such an update. -/
theorem after_updateQuery {changed : List Row}
    (hchanged : Query.updatedRows (updateQuery u) updateAssignments keyCondition rows = changed)
    (hallowed : changed.all Row.isAllowed = true) :
    (updateQuery u).after rows = if areApart changed then changed else rows := by
  subst hchanged
  show (if (Query.updatedRows (updateQuery u) updateAssignments keyCondition rows).all Row.isAllowed
    && areApart _ then _ else rows) = _
  rw [hallowed, Bool.true_and]

/-- The rows of the number of a user that is updated. -/
theorem Mirrors.filter_updateQuery (h : Mirrors t rows) (u : User) :
    (rows.filter fun r => keyCondition.holds (updateQuery u) r).Perm
      ((t.values.filter fun v => v.id = u.id).map rowOf) :=
  h.filter fun v _ => holds_keyCondition _ _ _ v

/-- What the database does when nobody has the number of a user that is updated. -/
theorem Mirrors.replies_update_of_none (h : Mirrors t rows) (hdate : u.createDate.isSome = true)
    (hnone : t.get? u.id = none) (hreply : (updateQuery u).Replies rows reply) :
    (∃ shown, reply = .done shown 0) ∧ (updateQuery u).after rows = rows := by
  have hchanged := h.updatedRows_of_none hdate hnone
  have hkey := h.filter_updateQuery u
  rw [h.filter_id_of_none hnone] at hkey
  constructor
  · have hdone := hreply.of_allowed hchanged h.rows_allowed
    rw [h.rows_apart, if_neg (by decide), hkey.length_eq] at hdone
    exact hdone
  · rw [after_updateQuery hchanged h.rows_allowed, ite_self]

/-- What the database does when somebody has the number of a user that is updated. -/
theorem Mirrors.replies_update_of_get? {old : User} (h : Mirrors t rows) (hu : isExact u = true)
    (hold : t.get? u.id = some old) (hreply : (updateQuery u).Replies rows reply) :
    (t.isFree u.id u.username = false ∧ reply.IsRefusal (· = uniqueViolation)
      ∧ (updateQuery u).after rows = rows)
    ∨ (t.isFree u.id u.username = true ∧ (∃ shown, reply = .done shown 1)
      ∧ Mirrors (SortedMap.insert t u.id u) ((updateQuery u).after rows)) := by
  have hid : old.id = u.id := h.tidy.id_eq _ _ hold
  have hstorable : isStorable u = true := by
    have hmem := h.storable old (Table.mem_values_iff.2 ⟨_, hold⟩)
    exact isStorable_iff.2 ⟨hid ▸ (isStorable_iff.1 hmem).1, hu⟩
  have hperm := h.updatedRows_perm (isExact_iff.1 hu).1 hold
  have hallowed := all_isAllowed_of_perm (h.storable_cons_erase hstorable) hperm
  have hapart := (areApart_of_perm hperm).trans (h.areApart_cons u)
  have hkey := h.filter_updateQuery u
  rw [h.filter_id_of_get? hold] at hkey
  have hdone := hreply.of_allowed rfl hallowed
  have hafter := after_updateQuery rfl hallowed
  rw [hapart, hkey.length_eq] at hdone
  rw [hapart] at hafter
  -- whether the name is taken decides both the reply and what becomes of the rows
  cases hfree : t.isFree u.id u.username with
  | false =>
    rw [hfree] at hdone hafter
    exact .inl ⟨rfl, hdone, hafter⟩
  | true =>
    rw [hfree, if_neg (by decide)] at hdone
    rw [hfree] at hafter
    refine .inr ⟨rfl, hdone, ?_⟩
    rw [hafter]
    exact h.insert hstorable hfree hperm

theorem Mirrors.agrees_update (h : Mirrors t rows) (hu : isExact u = true)
    (hreply : (updateQuery u).Replies rows reply) :
    Agrees t rows now (.update u) (updateQuery u) reply := by
  cases hold : t.get? u.id with
  | none =>
    obtain ⟨⟨_, rfl⟩, hafter⟩ := h.replies_update_of_none (isExact_iff.1 hu).1 hold hreply
    refine .of_perform (Table.perform_update_of_none now hold) rfl ?_
    rw [hafter]
    exact h
  | some old =>
    rcases h.replies_update_of_get? hu hold hreply with ⟨hfree, ⟨_, reason, rfl, rfl⟩, hafter⟩
      | ⟨hfree, ⟨_, rfl⟩, hafter⟩
    · refine .of_perform (Table.perform_update_of_taken now hold hfree) rfl ?_
      rw [hafter]
      exact h
    · exact .of_perform (Table.perform_update_of_isFree hold hfree) rfl hafter

/-- A statement about the row of a number. -/
def keyQuery (s : Statement) (id : UInt32) : Query := ⟨s, [.int id.toNat]⟩

/-- The rows of a number. -/
theorem Mirrors.filter_key (h : Mirrors t rows) (s : Statement) (id : UInt32) :
    (rows.filter fun r => keyCondition.holds (keyQuery s id) r).Perm
      ((t.values.filter fun v => v.id = id).map rowOf) :=
  h.filter fun v _ => holds_keyCondition s id [] v

theorem Mirrors.agrees_delete (h : Mirrors t rows)
    (hreply : (keyQuery (.delete keyCondition) id).Replies rows reply) :
    Agrees t rows now (.delete id) (keyQuery (.delete keyCondition) id) reply := by
  obtain ⟨shown, rfl⟩ := hreply
  have hafter := h.erase id (holds_keyCondition (.delete keyCondition) id [])
  have hkey := h.filter_key (.delete keyCondition) id
  cases hold : t.get? id with
  | none =>
    rw [h.filter_id_of_none hold] at hkey
    rw [SortedMap.erase_of_get?_eq_none hold] at hafter
    rw [hkey.length_eq]
    exact .of_perform (Table.perform_delete_of_none now hold) rfl hafter
  | some old =>
    rw [h.filter_id_of_get? hold] at hkey
    rw [hkey.length_eq]
    exact .of_perform (Table.perform_delete_of_get? now hold) rfl hafter

/-! ## §3. Asking. -/

/-- The first row that comes is the user that was asked for. -/
theorem interpret_get {c : Cells} {more : List Cells} {n : Nat} {r : UserRow} (hread : c.read = .ok r)
    (huser : r.toUser = .ok u) :
    interpret (.get id) (.done (.users (c :: more)) n) = Except.ok u := by
  have hfetch : fetch (.get id) (.done (.users (c :: more)) n) = Except.ok (some r) := by
    show c.read.map some = _
    rw [hread]
    rfl
  unfold interpret
  rw [hfetch]
  exact huser

theorem Mirrors.agrees_get (h : Mirrors t rows)
    (hreply : (keyQuery (.select (.where_ keyCondition) false none) id).Replies rows reply) :
    Agrees t rows now (.get id) (keyQuery (.select (.where_ keyCondition) false none) id) reply := by
  obtain ⟨found, cells, n, hfound, _, hshows, rfl⟩ := hreply
  change List.Forall₂ Row.Shows found cells at hshows
  have hperm := hfound.trans (h.filter_key _ id)
  refine ⟨?_, h⟩
  cases hold : t.get? id with
  | none =>
    rw [h.filter_id_of_none hold] at hperm
    rw [hperm.eq_nil] at hshows
    cases hshows
    have hmemory : t.fetch id = .error (.notFound id) := by
      unfold Table.fetch
      rw [hold]
    exact hmemory.symm
  | some u =>
    rw [h.filter_id_of_get? hold] at hperm
    rw [hperm.eq_singleton] at hshows
    cases hshows with
    | cons hfirst hmore =>
      have hmem := h.storable u (Table.mem_values_iff.2 ⟨id, hold⟩)
      obtain ⟨r, hr, hu⟩ := toUser_of_shows (isStorable_iff.1 hmem).2 hfirst
      exact (interpret_get hr hu).trans (Table.fetch_eq_ok_iff.2 hold).symm

theorem firstPage_map {α β : Type} (f : ListFilter) (g : α → β) (l : List α) :
    f.firstPage (l.map g) = (f.firstPage l).map g := by
  unfold ListFilter.firstPage
  cases f.limit with
  | none => rfl
  | some n => exact List.map_take.symm

theorem Mirrors.agrees_list (h : Mirrors t rows) {f : ListFilter} (hf : isExactFilter f = true)
    {cursor : Option UInt32} (hcursor : f.cursor = .ok cursor)
    (hreply : (listQuery cursor f).Replies rows reply) :
    Agrees t rows now (.list f) (listQuery cursor f) reply := by
  obtain ⟨found, cells, n, hfound, hordered, hshows, rfl⟩ := hreply
  change List.Forall₂ Row.Shows ((listQuery cursor f).limited
    (f.limit.map fun _ => (clauses cursor f).length + 1) found) cells at hshows
  refine ⟨?_, h⟩
  have hperm : found.Perm (((t.after cursor).filter f.accepts).map rowOf) := by
    rw [h.tidy.after_eq_filter, List.filter_filter]
    refine hfound.trans (h.filter fun u hu => ?_)
    rw [Bool.and_comm]
    exact holds_listQuery hf (isStorable_iff.1 (h.storable u hu)).2 cursor
  have hsublist : ((t.after cursor).filter f.accepts).Sublist t.values := by
    rw [h.tidy.after_eq_filter, List.filter_filter]
    exact List.filter_sublist
  rw [limited_listQuery, eq_map_rowOf_of_ordered (h.tidy.values_ascending.sublist hsublist) hperm
    (hordered rfl), firstPage_map] at hshows
  obtain ⟨rs, hread, husers⟩ := toUsers_of_shows (fun u hu =>
    h.storable u (hsublist.mem ((ListFilter.firstPage_prefix f _).subset hu))) hshows
  have hmemory : t.select f = .ok (f.firstPage ((t.after cursor).filter f.accepts)) := by
    unfold Table.select
    rw [hcursor]
    rfl
  exact (interpret_list hread f n).trans (husers.trans hmemory.symm)

theorem Mirrors.agrees_listByRole (h : Mirrors t rows) {r : Role}
    (hreply : (Query.mk (.select (.where_ ⟨.role, .equal, 1⟩) true none) [.int r.code]).Replies rows
      reply) :
    Agrees t rows now (.listByRole r)
      ⟨.select (.where_ ⟨.role, .equal, 1⟩) true none, [.int r.code]⟩ reply := by
  obtain ⟨found, cells, n, hfound, hordered, hshows, rfl⟩ := hreply
  change List.Forall₂ Row.Shows found cells at hshows
  refine ⟨?_, h⟩
  have hperm : found.Perm ((t.withRole r).map rowOf) :=
    hfound.trans (h.filter fun u _ => holds_role _ r u)
  rw [eq_map_rowOf_of_ordered (h.tidy.values_ascending.filter _) hperm (hordered rfl)] at hshows
  obtain ⟨rs, hread, husers⟩ := toUsers_of_shows (fun u hu =>
    h.storable u (List.mem_of_mem_filter hu)) hshows
  exact (interpret_listByRole hread r n).trans husers

theorem Mirrors.agrees_contains (h : Mirrors t rows)
    (hreply : (keyQuery (.contains keyCondition) id).Replies rows reply) :
    Agrees t rows now (.contains id) (keyQuery (.contains keyCondition) id) reply := by
  obtain ⟨n, rfl⟩ := hreply
  refine ⟨?_, h⟩
  have hany : (rows.any fun r => keyCondition.holds (keyQuery (.contains keyCondition) id) r)
      = SortedMap.contains t id := by
    rw [h.any, ← h.any_id]
    exact congrArg _ (funext fun v => holds_keyCondition _ id [] v)
  show Except.ok _ = Except.ok _
  rw [hany]

theorem Mirrors.agrees_count (h : Mirrors t rows) (hreply : (Query.mk .count []).Replies rows reply) :
    Agrees t rows now .count ⟨.count, []⟩ reply := by
  obtain ⟨n, rfl⟩ := hreply
  refine ⟨?_, h⟩
  have hlength : rows.length = t.size := by
    rw [h.perm.length_eq, List.length_map]
    exact List.length_map _
  show countOf (rows.length : Int) = Except.ok t.size
  unfold countOf
  rw [if_pos (Int.natCast_nonneg _), Int.toNat_natCast, hlength]

/-! ## §4. Every operation. -/

/-- On a table and on rows that mirror it, an operation gives the same and leaves rows that mirror the
table again. -/
theorem Mirrors.agrees {op : Operation} {q : Query} (h : Mirrors t rows)
    (hop : isExactOperation now op = true) (hq : queryOf now op = .ok q)
    (hreply : q.Replies rows reply) : Agrees t rows now op q reply := by
  cases op with
  | add u =>
    cases hq
    exact h.agrees_add hop hreply
  | get id =>
    cases hq
    exact h.agrees_get hreply
  | update u =>
    cases hq
    exact h.agrees_update hop hreply
  | delete id =>
    cases hq
    exact h.agrees_delete hreply
  | list f =>
    cases hcursor : f.cursor with
    | error e =>
      simp only [queryOf, hcursor, bind, Except.bind] at hq
      cases hq
    | ok cursor =>
      simp only [queryOf, hcursor, bind, Except.bind] at hq
      cases hq
      exact h.agrees_list hop hcursor hreply
  | listByRole r =>
    cases hq
    exact h.agrees_listByRole hreply
  | contains id =>
    cases hq
    exact h.agrees_contains hreply
  | count =>
    cases hq
    exact h.agrees_count hreply

/-- What is not sent to a database is refused in memory, for the same reason. -/
theorem perform_of_queryOf_error {op : Operation} {e : StoreError} (t : Table)
    (he : queryOf now op = .error e) : t.perform now op = (.error e, t) := by
  cases op with
  | list f =>
    cases hcursor : f.cursor with
    | ok cursor =>
      simp only [queryOf, hcursor, bind, Except.bind, pure, Except.pure] at he
      cases he
    | error e' =>
      simp only [queryOf, hcursor, bind, Except.bind] at he
      cases he
      show (t.select f, t) = _
      unfold Table.select
      rw [hcursor]
      rfl
  | _ => cases he

end UserDirectory.Store.Relational
