import UserDirectory.Store.Operation
import UserDirectory.Store.Relational.Row
import UserDirectory.Telemetry.Note
/-!
# A store in a relational database

Each operation is one statement, so the database does it at one instant and as a whole.  Here stands
which statement that is and what is made of the reply.
-/

namespace UserDirectory.Store.Relational

open UserDirectory.Telemetry (FieldValue Note)
open UserDirectory.Time (Instant)

/-! ## §1. Replies. -/

/-- The rows of a reply, as the question asked for them. -/
inductive ReplyRows
  | users (rows : List Cells)
  /-- numbers, such as that of a new user or how many users there are -/
  | numbers (rows : List (Option Int))
  | flags (rows : List (Option Bool))

/-- What the database replies. -/
inductive Reply
  /-- rows, and how many rows have been changed -/
  | done (rows : ReplyRows) (affected : Nat)
  | failed (cause : BackendFailure)

/-- A database, known by what it replies to a question after the questions before it. -/
abbrev Server : Type := List Query → Query → Reply

/-- A database to which no connection can be had any more. -/
def Server.unreachable : Server := fun _ _ => .failed .closed

/-- Why a statement was refused: a name or number is there already. -/
def uniqueViolation : String := "23505"

/-- Whether a database has refused a statement because something is there already. -/
def isUniqueViolation : BackendFailure → Bool
  | .refused state _ => state = uniqueViolation
  | _ => false

/-! ## §2. Statements. -/

/-- The condition that the number of a row be the first parameter. -/
def keyCondition : Condition := ⟨.id, .equal, 1⟩

/-- What an update sets: every column but the number, in order.  A missing date of creation leaves
the one that is there. -/
def updateAssignments : List Assignment :=
  [.bound .username 2, .bound .role 3, .bound .status 4, .bound .email 5, .bound .phone 6,
   .bound .profile 7, .bound .tags 8, .bound .metadata 9, .bound .addresses 10,
   .boundUnlessNull .createDate 11, .bound .lastLogin 12]

/-- A condition of a listing before its parameter has a number. -/
structure Clause where
  column : Column
  comparison : Comparison
  parameter : Parameter

/-- A clause, if there is something to compare with. -/
def clause? {α : Type} (column : Column) (comparison : Comparison) (f : α → Parameter)
    (a : Option α) : List Clause :=
  match a with
  | none => []
  | some a => [⟨column, comparison, f a⟩]

/-- The clauses of a listing. -/
def clauses (cursor : Option UInt32) (f : ListFilter) : List Clause :=
  clause? .id .greater (fun id => .int id.toNat) cursor
    ++ clause? .createDate .atLeast .instant f.createdSince
    ++ clause? .createDate .less .instant f.createdBefore
    ++ clause? .status .equal (fun s => .int s.code) f.status

/-- The conditions of some clauses, their parameters numbered from `n` on. -/
def numbered : Nat → List Clause → List Condition
  | _, [] => []
  | n, c :: more => ⟨c.column, c.comparison, n⟩ :: numbered (n + 1) more

/-- The question for a listing. -/
def listQuery (cursor : Option UInt32) (f : ListFilter) : Query :=
  let cs := clauses cursor f
  let limit := f.limit
  { statement := .select (.whereAll (numbered 1 cs)) true (limit.map fun _ => cs.length + 1)
    parameters := cs.map Clause.parameter ++ (limit.map fun n => Parameter.int n).toList }

/-- The statement of an operation.  A bad page token is found before anything is sent. -/
def queryOf (now : Instant) : Operation → Except StoreError Query
  | .add u => .ok ⟨.insert, parametersOf (withDefaults u now)⟩
  | .get id => .ok ⟨.select (.where_ keyCondition) false none, [.int id.toNat]⟩
  | .update u => .ok ⟨.update updateAssignments keyCondition, parametersOf u⟩
  | .delete id => .ok ⟨.delete keyCondition, [.int id.toNat]⟩
  | .list f => do
    -- a bad token is found here, before anything is sent
    let cursor ← f.cursor
    pure (listQuery cursor f)
  | .listByRole r => .ok ⟨.select (.where_ ⟨.role, .equal, 1⟩) true none, [.int r.code]⟩
  | .contains id => .ok ⟨.contains keyCondition, [.int id.toNat]⟩
  | .count => .ok ⟨.count, []⟩

/-! ## §3. Making something of a reply. -/

/-- The first of some rows that each hold one value, if there is a row. -/
def first? {α : Type} : List (Option α) → Except BackendFailure (Option α)
  | [] => .ok none
  | some a :: _ => .ok (some a)
  | none :: _ => .error (.unreadable "0" BackendFailure.nullColumn)

/-- The first of some rows that each hold one value; there must be a row. -/
def first {α : Type} (rows : List (Option α)) : Except BackendFailure α := do
  match ← first? rows with
  | some a => pure a
  | none => throw .noRow

/-- Reads the columns of all rows. -/
def readRows : List Cells → Except BackendFailure (List UserRow)
  | [] => .ok []
  | c :: more => do
    let r ← c.read
    let rs ← readRows more
    pure (r :: rs)

/-- The rows of users in a reply. -/
def Reply.userRows : Reply → Except BackendFailure (List Cells)
  | .failed cause => .error cause
  | .done (.users rows) _ => .ok rows
  | .done _ _ => .ok []

/-- The rows of numbers in a reply. -/
def Reply.numberRows : Reply → Except BackendFailure (List (Option Int))
  | .failed cause => .error cause
  | .done (.numbers rows) _ => .ok rows
  | .done _ _ => .ok []

/-- The rows of truth values in a reply. -/
def Reply.flagRows : Reply → Except BackendFailure (List (Option Bool))
  | .failed cause => .error cause
  | .done (.flags rows) _ => .ok rows
  | .done _ _ => .ok []

/-- How many rows a reply says have been changed. -/
def Reply.affectedRows : Reply → Except BackendFailure Nat
  | .failed cause => .error cause
  | .done _ n => .ok n

/-- What is made of a reply before it is taken for the reply to an operation. -/
def Fetched : Operation → Type
  | .add _ => Option Int
  | .get _ => Option UserRow
  | .update _ => Nat
  | .delete _ => Nat
  | .list _ => List UserRow
  | .listByRole _ => List UserRow
  | .contains _ => Bool
  | .count => Int

/-- Takes from a reply what an operation asks for; of users by number only the first row counts. -/
def fetch : (op : Operation) → Reply → Except BackendFailure (Fetched op)
  | .add _, r => do first? (← r.numberRows)
  | .get _, r => do
    match ← r.userRows with
    | [] => pure none
    | c :: _ => (c.read).map some
  | .update _, r => r.affectedRows
  | .delete _, r => r.affectedRows
  | .list _, r => do readRows (← r.userRows)
  | .listByRole _, r => do readRows (← r.userRows)
  | .contains _, r => do first (← r.flagRows)
  | .count, r => do first (← r.numberRows)

/-- The number of users in a row. -/
def countOf (n : Int) : Except StoreError Nat :=
  if 0 ≤ n then .ok n.toNat
  else .error (.corrupt ("user count " ++ String.ofList (Text.Decimal.writeInt n)))

/-- Something must have been found or changed. -/
def found (id : UInt32) (some_ : Bool) : Except StoreError Unit :=
  if some_ then .ok () else .error (.notFound id)

/-- The outcome of an operation for which something was fetched. -/
def outcomeOf : (op : Operation) → Fetched op → op.Outcome
  | .add u, inserted =>
    match (inserted : Option Int) with
    | some _ => .ok ()
    | none => .error (.alreadyExists u.id)
  | .get id, row =>
    match (row : Option UserRow) with
    | some r => r.toUser
    | none => .error (.notFound id)
  | .update u, (n : Nat) => found u.id (n ≠ 0)
  | .delete id, (n : Nat) => found id (n ≠ 0)
  | .list _, rows => toUsers rows
  | .listByRole _, rows => toUsers rows
  | .contains _, b => .ok b
  | .count, n => countOf n

/-- The error of an operation whose statement failed: a name that is there already is taken. -/
def errorOf (op : Operation) (cause : BackendFailure) : StoreError :=
  match op with
  | .add u => if isUniqueViolation cause then .usernameTaken u.username else .database cause
  | .update u => if isUniqueViolation cause then .usernameTaken u.username else .database cause
  | _ => .database cause

/-- The outcome of an operation that got a reply. -/
def interpret (op : Operation) (r : Reply) : op.Outcome :=
  match fetch op r with
  | .ok a => outcomeOf op a
  | .error cause => .error (errorOf op cause)

/-! ## §4. The log. -/

/-- The name of an operation's statement in the log. -/
def queryName : Operation → String
  | .add _ => "add_user"
  | .get _ => "get_user"
  | .update _ => "update_user"
  | .delete _ => "delete_user"
  | .list _ => "list_users"
  | .listByRole _ => "list_users_by_role"
  | .contains _ => "user_exists"
  | .count => "count_users"

/-- What the log tells about an operation beside its name. -/
def subject : Operation → String × FieldValue
  | .add u => ("user_id", .int u.id.toNat)
  | .get id => ("user_id", .int id.toNat)
  | .update u => ("user_id", .int u.id.toNat)
  | .delete id => ("user_id", .int id.toNat)
  | .list f => ("page_size", .int f.pageSize.toNat)
  | .listByRole r => ("role", .text r.name)
  | .contains id => ("user_id", .int id.toNat)
  | .count => ("table", .text "users")

/-- What is noted about an operation that got a reply: a failure of the database. -/
def noteOf (op : Operation) (r : Reply) : List Note :=
  match fetch op r with
  | .ok _ => []
  | .error cause => [.queryFailed (queryName op) (subject op).1 (subject op).2 cause]

/-- What is noted when a connection has been made and the table is there. -/
def connectNotes : List Note := [.databaseConnected, .databaseMigrated]

end UserDirectory.Store.Relational
