import UserDirectory.Proofs.Store.Relational.Row
/-!
# Conditions on the rows of users

What the conditions of the statements say of the row of a user is what a store in memory asks of the
user.

Main statements:
  * `isApart_rowOf` and `isAllowed_rowOf`: the rules of the table, for rows of users;
  * `holds_keyCondition`: the row of a number;
  * `holds_listQuery`: the conditions of a listing, numbered in order, are those of its filter.
-/

namespace UserDirectory

/-- The numbers tell roles apart. -/
theorem Role.code_inj {r s : Role} : r.code = s.code ↔ r = s := by
  constructor
  · intro h
    have hcode := congrArg Role.ofCode? h
    rw [Role.ofCode?_code, Role.ofCode?_code] at hcode
    exact Option.some.inj hcode
  · intro h
    rw [h]

/-- The numbers tell states apart. -/
theorem AccountStatus.code_inj {s s' : AccountStatus} : s.code = s'.code ↔ s = s' := by
  constructor
  · intro h
    have hcode := congrArg AccountStatus.ofCode? h
    rw [AccountStatus.ofCode?_code, AccountStatus.ofCode?_code] at hcode
    exact Option.some.inj hcode
  · intro h
    rw [h]

end UserDirectory

namespace UserDirectory.Store.Relational

open UserDirectory.Time (Instant)

variable {u v : User}

/-! ## §1. The rules of the table. -/

theorem cast_toNat_inj {m n : UInt32} : (m.toNat : Int) = n.toNat ↔ m = n := by
  rw [Int.natCast_inj, UInt32.toNat_inj]

theorem cast_toNat_lt {m n : UInt32} : (m.toNat : Int) < n.toNat ↔ m < n := by
  rw [Int.ofNat_lt, UInt32.lt_iff_toNat_lt]

/-- Rows agree in the number when the users have one number. -/
theorem agrees_id : (rowOf u).agrees .id (rowOf v) = decide (u.id = v.id) := by
  show decide ((u.id.toNat : Int) = v.id.toNat) = _
  rw [decide_eq_decide]
  exact cast_toNat_inj

/-- Rows agree in the name when the users have one name. -/
theorem agrees_username : (rowOf u).agrees .username (rowOf v) = decide (u.username = v.username) :=
  rfl

/-- Rows are apart when the users have neither one number nor one name. -/
theorem isApart_rowOf :
    (rowOf u).isApart (rowOf v) = true ↔ u.id ≠ v.id ∧ u.username ≠ v.username := by
  unfold Row.isApart
  rw [agrees_id, agrees_username, Bool.and_eq_true, Bool.not_eq_true', Bool.not_eq_true',
    decide_eq_false_iff_not, decide_eq_false_iff_not]

/-- The columns in which a value must stand. -/
theorem neededColumns_eq :
    neededColumns = [.id, .username, .role, .tags, .metadata, .addresses, .createDate] := by
  decide

/-- The rules of the columns allow the row of a user that has a number and a date of creation. -/
theorem isAllowed_rowOf (hid : u.id ≠ 0) (hdate : u.createDate.isSome = true) :
    (rowOf u).isAllowed = true := by
  obtain ⟨created, hcreated⟩ := Option.isSome_iff_exists.1 hdate
  have hpos : 0 < u.id.toNat := by
    rcases Nat.eq_zero_or_pos u.id.toNat with h | h
    · exact absurd (UInt32.toNat_inj.1 h) hid
    · exact h
  unfold Row.isAllowed
  rw [neededColumns_eq, Bool.and_eq_true]
  constructor
  · -- in each column that needs a value there is one
    simp only [List.all_cons, List.all_nil, rowOf_id, rowOf_username, rowOf_role, rowOf_tags,
      rowOf_metadata, rowOf_addresses, rowOf_createDate, hcreated]
    rfl
  · -- the number is positive
    show decide ((0 : Int) < (u.id.toNat : Int)) = true
    rw [decide_eq_true_eq]
    omega

/-- A comparison for equality holds one way as the other. -/
theorem holds_equal_comm (p q : Parameter) :
    Comparison.equal.holds p q = Comparison.equal.holds q p := by
  cases p <;> cases q <;> try rfl
  all_goals
    unfold Comparison.holds
    simp only [Comparison.ofInts, eq_comm]

theorem isApart_comm {r r' : Row} (h : r.isApart r' = true) : r'.isApart r = true := by
  unfold Row.isApart Row.agrees at h ⊢
  rw [holds_equal_comm (r' .id), holds_equal_comm (r' .username)]
  exact h

/-- Whether rows may stand in the table does not depend on their order. -/
theorem areApart_of_perm {rows rows' : List Row} (h : rows.Perm rows') :
    areApart rows = areApart rows' := by
  unfold areApart
  rw [decide_eq_decide]
  exact h.pairwise_iff isApart_comm

theorem areApart_map_rowOf {us : List User} :
    areApart (us.map rowOf) = true
      ↔ us.Pairwise fun u v => u.id ≠ v.id ∧ u.username ≠ v.username := by
  unfold areApart
  rw [decide_eq_true_eq, List.pairwise_map]
  simp only [isApart_rowOf]

/-! ## §2. The row of a number. -/

/-- The condition on the key holds of the row of the number that is the first parameter. -/
theorem holds_keyCondition (s : Statement) (id : UInt32) (more : List Parameter) (v : User) :
    keyCondition.holds ⟨s, .int id.toNat :: more⟩ (rowOf v) = decide (v.id = id) := by
  show decide ((v.id.toNat : Int) = id.toNat) = _
  rw [decide_eq_decide]
  exact cast_toNat_inj

/-- The statement that updates a user. -/
def updateQuery (u : User) : Query :=
  ⟨.update updateAssignments keyCondition, parametersOf u⟩

/-- An update sets the whole row of a user to that of another with the same number, if there is a date
of creation. -/
theorem updated_rowOf (hid : v.id = u.id) (hdate : u.createDate.isSome = true) :
    Row.updated (updateQuery u) updateAssignments (rowOf v) = rowOf u := by
  obtain ⟨created, hcreated⟩ := Option.isSome_iff_exists.1 hdate
  funext c
  cases c with
  | id =>
    -- the key is not assigned
    show rowOf v .id = rowOf u .id
    rw [rowOf_id, rowOf_id, hid]
  | createDate =>
    -- assigned unless there is nothing to assign
    show (if (Parameter.optional Parameter.instant u.createDate).isNull then rowOf v .createDate
      else Parameter.optional Parameter.instant u.createDate) = rowOf u .createDate
    rw [rowOf_createDate u, hcreated]
    rfl
  | _ => rfl

/-- An update puts the row of a user where that of their number stands. -/
theorem update_rowOf (hdate : u.createDate.isSome = true) :
    (if keyCondition.holds (updateQuery u) (rowOf v) then
        Row.updated (updateQuery u) updateAssignments (rowOf v)
      else rowOf v) = rowOf (if v.id = u.id then u else v) := by
  have hkey : keyCondition.holds (updateQuery u) (rowOf v) = decide (v.id = u.id) :=
    holds_keyCondition _ _ _ _
  rw [hkey]
  by_cases hid : v.id = u.id
  · rw [if_pos (decide_eq_true hid), if_pos hid]
    exact updated_rowOf hid hdate
  · rw [if_neg (by rw [decide_eq_true_eq]; exact hid), if_neg hid]

/-- The row of a role. -/
theorem holds_role (s : Statement) (r : Role) (v : User) :
    Condition.holds ⟨s, [.int r.code]⟩ ⟨.role, .equal, 1⟩ (rowOf v) = decide (v.role = r) := by
  show decide (v.role.code = r.code) = _
  rw [decide_eq_decide]
  exact Role.code_inj

/-! ## §3. Listings. -/

/-- Whether a clause is true of a row. -/
def Clause.holds (c : Clause) (r : Row) : Bool := c.comparison.holds (r c.column) c.parameter

/-- Conditions that are numbered in the order of their parameters hold when the clauses do. -/
theorem all_numbered_holds (s : Statement) (r : Row) (before : List Parameter) (cs : List Clause)
    (after : List Parameter) :
    ((numbered (before.length + 1) cs).all fun c =>
        c.holds ⟨s, before ++ (cs.map Clause.parameter ++ after)⟩ r)
      = cs.all fun c => c.holds r := by
  induction cs generalizing before with
  | nil => rfl
  | cons c cs ih =>
    -- the parameter of the first clause goes to those before, so the numbers go on by one
    have hrest := ih (before ++ [c.parameter])
    rw [List.length_append, List.length_singleton, List.append_assoc] at hrest
    have hfirst : Query.parameter ⟨s, before ++ ((c :: cs).map Clause.parameter ++ after)⟩
        (before.length + 1) = c.parameter := by
      unfold Query.parameter
      rw [Nat.add_sub_cancel, List.getElem?_append_right (Nat.le_refl _), Nat.sub_self]
      rfl
    show (c.comparison.holds (r c.column) _ && _) = (c.holds r && _)
    rw [hfirst]
    exact congrArg _ hrest

/-- A clause that is there only if there is something to compare with. -/
theorem all_clause? {α : Type} (column : Column) (comparison : Comparison) (f : α → Parameter)
    (a : Option α) (r : Row) :
    ((clause? column comparison f a).all fun c => c.holds r)
      = ListFilter.asks a fun a => comparison.holds (r column) (f a) := by
  cases a with
  | none => rfl
  | some a => exact Bool.and_true _

/-- An instant in a column is compared as it is, if all are of whole microseconds. -/
theorem holds_atLeast_instant {since : Option Instant} (hsince : since.all Instant.isWholeMicros = true)
    (hdate : u.createDate.all Instant.isWholeMicros = true) :
    (ListFilter.asks since fun since =>
        Comparison.atLeast.holds (rowOf u .createDate) (.instant since))
      = ListFilter.asks since fun since => u.createDate.any (since ≤ ·) := by
  rw [rowOf_createDate]
  cases since with
  | none => rfl
  | some since =>
    cases hcreated : u.createDate with
    | none => rfl
    | some created =>
      rw [hcreated] at hdate
      show decide (since.microsSince2000 ≤ created.microsSince2000) = decide (since ≤ created)
      rw [decide_eq_decide]
      exact (Instant.le_iff_microsSince2000_le hsince hdate).symm

theorem holds_less_instant {before : Option Instant}
    (hbefore : before.all Instant.isWholeMicros = true)
    (hdate : u.createDate.all Instant.isWholeMicros = true) :
    (ListFilter.asks before fun before =>
        Comparison.less.holds (rowOf u .createDate) (.instant before))
      = ListFilter.asks before fun before => u.createDate.any (· < before) := by
  rw [rowOf_createDate]
  cases before with
  | none => rfl
  | some before =>
    cases hcreated : u.createDate with
    | none => rfl
    | some created =>
      rw [hcreated] at hdate
      show decide (created.microsSince2000 < before.microsSince2000) = decide (created < before)
      rw [decide_eq_decide]
      exact (Instant.lt_iff_microsSince2000_lt hdate hbefore).symm

/-- No state is equal to a state that is missing. -/
theorem holds_equal_status (s : Option AccountStatus) (u : User) :
    (ListFilter.asks s fun s => Comparison.equal.holds (rowOf u .status) (.int s.code))
      = ListFilter.asks s fun s => u.status = some s := by
  rw [rowOf_status]
  cases s with
  | none => rfl
  | some s =>
    cases hstatus : u.status with
    | none => rfl
    | some s' =>
      show decide (s'.code = s.code) = decide (some s' = some s)
      rw [decide_eq_decide, Option.some.injEq]
      exact AccountStatus.code_inj

theorem holds_greater_id (cursor : Option UInt32) (u : User) :
    (ListFilter.asks cursor fun id => Comparison.greater.holds (rowOf u .id) (.int id.toNat))
      = ListFilter.asks cursor fun id => id < u.id := by
  cases cursor with
  | none => rfl
  | some id =>
    show decide ((id.toNat : Int) < u.id.toNat) = decide (id < u.id)
    rw [decide_eq_decide]
    exact cast_toNat_lt

/-- Whether the instants of a filter are of whole microseconds. -/
def isExactFilter (f : ListFilter) : Bool :=
  f.createdSince.all Instant.isWholeMicros && f.createdBefore.all Instant.isWholeMicros

/-- The conditions of a listing are those of its filter, and that the number be beyond the cursor. -/
theorem holds_listQuery {f : ListFilter} (hf : isExactFilter f = true) (hu : isExact u = true)
    (cursor : Option UInt32) :
    (Rows.whereAll (numbered 1 (clauses cursor f))).holds (listQuery cursor f) (rowOf u)
      = (ListFilter.asks cursor (fun id => id < u.id) && f.accepts u) := by
  obtain ⟨hsince, hbefore⟩ : f.createdSince.all Instant.isWholeMicros = true
      ∧ f.createdBefore.all Instant.isWholeMicros = true := by
    simpa only [isExactFilter, Bool.and_eq_true] using hf
  obtain ⟨_, hdate, _⟩ := isExact_iff.1 hu
  have hclauses := all_numbered_holds (listQuery cursor f).statement (rowOf u) [] (clauses cursor f)
    (f.limit.map fun n => Parameter.int n).toList
  -- the conditions are those of the clauses, and each clause is one part of the filter
  refine Eq.trans hclauses ?_
  unfold clauses
  rw [List.all_append, List.all_append, List.all_append, all_clause?, all_clause?, all_clause?,
    all_clause?, holds_greater_id, holds_atLeast_instant hsince hdate,
    holds_less_instant hbefore hdate, holds_equal_status, Bool.and_assoc, Bool.and_assoc]
  unfold ListFilter.accepts
  rw [Bool.and_assoc]

/-- The greatest number of rows of a listing is the parameter after those of its clauses. -/
theorem limited_listQuery (cursor : Option UInt32) (f : ListFilter) (rows : List Row) :
    (listQuery cursor f).limited (f.limit.map fun _ => (clauses cursor f).length + 1) rows
      = f.firstPage rows := by
  unfold ListFilter.firstPage
  cases hlimit : f.limit with
  | none => rfl
  | some n =>
    have hparameter : (listQuery cursor f).parameter ((clauses cursor f).length + 1) = .int n := by
      unfold Query.parameter listQuery
      simp only [hlimit]
      rw [Nat.add_sub_cancel, List.getElem?_append_right (Nat.le_of_eq (List.length_map _)),
        List.length_map, Nat.sub_self]
      rfl
    rw [Option.map_some]
    unfold Query.limited
    simp only
    rw [hparameter]
    rfl

end UserDirectory.Store.Relational
