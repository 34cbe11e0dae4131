import UserDirectory.Proofs.Store.Relational.Database
/-!
# A plain database

A server that goes through all statements before each reply, orders rows by sorting them and gives
nested values as they were written.  So what is asked of a database can be had.

Main statement: `isDatabase_plainServer`.
-/

namespace UserDirectory.Store.Relational

open UserDirectory.Json (Gap Rearranged renders_write)

/-! ## §1. Rows as they come. -/

/-- A nested value as it comes: its text. -/
def Parameter.cell : Parameter → Option String
  | json v => some v.text
  | _ => none

theorem Parameter.comesAs_cell (p : Parameter) : p.ComesAs p.cell := by
  cases p with
  | json v =>
    refine ⟨v, [], v.write, [], .refl v, .nil, renders_write v, .nil, ?_⟩
    rw [List.append_nil, List.nil_append]
    rfl
  | _ => rfl

/-- A row as it comes. -/
def Row.cells (r : Row) : Cells where
  id := (r .id).int?
  username := (r .username).text?
  role := (r .role).int?
  status := (r .status).int?
  email := (r .email).text?
  phone := (r .phone).text?
  profile := (r .profile).cell
  tags := (r .tags).texts?
  metadata := (r .metadata).cell
  addresses := (r .addresses).cell
  createDate := (r .createDate).instant?
  lastLogin := (r .lastLogin).instant?

theorem Row.shows_cells (r : Row) : r.Shows r.cells :=
  ⟨rfl, rfl, rfl, rfl, rfl, rfl, (r .profile).comesAs_cell, rfl, (r .metadata).comesAs_cell,
    (r .addresses).comesAs_cell, rfl, rfl⟩

/-! ## §2. Rows in order. -/

/-- The number by which a row is ordered. -/
def Row.key (r : Row) : Int :=
  match r .id with
  | .int n => n
  | .micros n => n
  | _ => 0

/-- A row may stand before those with the same key or a greater one. -/
theorem Row.precedes_of_key_le {r r' : Row} (h : r.key ≤ r'.key) : r.precedes r' := by
  unfold Row.precedes
  unfold Row.key at h
  cases hr : r .id <;> cases hr' : r' .id <;> try rfl
  all_goals
    rw [hr, hr'] at h
    exact decide_eq_false (Int.not_lt.2 h)

/-- Rows in the order of their keys. -/
def ordered (rows : List Row) : List Row := rows.mergeSort fun r r' => r.key ≤ r'.key

theorem ordered_perm (rows : List Row) : (ordered rows).Perm rows :=
  List.mergeSort_perm rows _

theorem pairwise_ordered (rows : List Row) : (ordered rows).Pairwise Row.precedes := by
  have hkeys : (ordered rows).Pairwise fun r r' => decide (r.key ≤ r'.key) = true := by
    refine List.pairwise_mergeSort ?_ ?_ rows
    · intro a b c hab hbc
      rw [decide_eq_true_eq] at hab hbc ⊢
      omega
    · intro a b
      rw [Bool.or_eq_true, decide_eq_true_eq, decide_eq_true_eq]
      omega
  exact hkeys.imp fun h => Row.precedes_of_key_le (of_decide_eq_true h)

/-! ## §3. The server. -/

/-- A statement is refused since a rule of the columns forbids it. -/
def checkViolation : String := "23514"

/-- The reply to a statement. -/
def Query.plainReply (q : Query) (rows : List Row) : Reply :=
  match q.statement with
  | .insert =>
    if Row.isAllowed q.newRow = false then .failed (.refused checkViolation "check")
    else if rows.any (Row.agrees q.newRow .id) then .done (.numbers []) 0
    else if rows.any (Row.agrees q.newRow .username) then .failed (.refused uniqueViolation "name")
    else .done (.numbers [(q.newRow .id).int?]) 1
  | .select which _ limit =>
    let found := q.limited limit (ordered (rows.filter fun r => which.holds q r))
    .done (.users (found.map Row.cells)) 0
  | .update assignments key =>
    let rows' := q.updatedRows assignments key rows
    if rows'.all Row.isAllowed = false then .failed (.refused checkViolation "check")
    else if areApart rows' = false then .failed (.refused uniqueViolation "name")
    else .done (.users []) (rows.filter fun r => key.holds q r).length
  | .delete key => .done (.users []) (rows.filter fun r => key.holds q r).length
  | .contains key => .done (.flags [some (rows.any fun r => key.holds q r)]) 0
  | .count => .done (.numbers [some (rows.length : Int)]) 0

/-- The server that replies so after all the statements before. -/
def plainServer : Server := fun history q => q.plainReply (rowsAfter history)

theorem Query.replies_plainReply (q : Query) (rows : List Row) :
    q.Replies rows (q.plainReply rows) := by
  unfold Query.Replies Query.plainReply
  cases q.statement with
  | insert =>
    simp only
    split
    · exact ⟨checkViolation, _, by decide, rfl⟩
    · split
      · -- a number that is there is no failure, but nothing comes
        rfl
      · split
        · exact ⟨uniqueViolation, _, rfl, rfl⟩
        · rfl
  | select which isOrdered limit =>
    refine ⟨_, _, 0, ordered_perm _, fun _ => pairwise_ordered _, ?_, rfl⟩
    rw [List.forall₂_map_right_iff, List.forall₂_same]
    intro r _
    exact r.shows_cells
  | update assignments key =>
    simp only
    split
    · exact ⟨checkViolation, _, by decide, rfl⟩
    · split
      · exact ⟨uniqueViolation, _, rfl, rfl⟩
      · exact ⟨_, rfl⟩
  | delete key => exact ⟨_, rfl⟩
  | contains key => exact ⟨_, rfl⟩
  | count => exact ⟨_, rfl⟩

theorem isDatabase_plainServer : plainServer.IsDatabase := fun history q _ =>
  q.replies_plainReply (rowsAfter history)

end UserDirectory.Store.Relational
