import Mathlib.Data.List.Forall2
import UserDirectory.Proofs.Json.Codec
import UserDirectory.Store.Relational.Engine
import UserDirectory.Store.Relational.Schema
/-!
# What a database does

The table holds rows, and a row holds in each column what has been stored there.  Here stands what each
statement does to the rows and what the database may reply: in any order where no order is asked for,
and with nested values as any of their texts.

Main definitions:
  * `Query.after`: the rows after a statement;
  * `Query.Replies`: the replies that a statement may get;
  * `Server.IsDatabase`: a server that does what the statements say, one after another.
-/

namespace UserDirectory.Store.Relational

open UserDirectory.Json (Gap Rearranged Renders Value)
open UserDirectory.Time (Instant)

/-! ## §1. Values. -/

/-- The instant that is so many microseconds from the start of 2000, if there is one. -/
def instantOf? (micros : Int) : Option Instant :=
  let nanos := micros * 1000 + 946684800 * 1_000_000_000
  Instant.of? (nanos / 1_000_000_000) (nanos % 1_000_000_000).toNat

namespace Parameter

/-- Whether there is no value. -/
def isNull : Parameter → Bool
  | null => true
  | _ => false

/-- The number in a column of numbers. -/
def int? : Parameter → Option Int
  | int n => some n
  | _ => none

/-- The text in a column of texts. -/
def text? : Parameter → Option String
  | text s => some s
  | _ => none

/-- The texts in a column of lists of texts. -/
def texts? : Parameter → Option (List (Option String))
  | texts l => some (l.map some)
  | _ => none

/-- The instant in a column of instants. -/
def instant? : Parameter → Option Instant
  | micros n => instantOf? n
  | _ => none

/-- What may come for a nested value: any of its texts, the members of its objects in any order. -/
def ComesAs : Parameter → Option String → Prop
  | json v, cell => ∃ w g cs g₁, Rearranged v w ∧ Gap g ∧ Renders (.value w) cs ∧ Gap g₁
      ∧ cell = some (String.ofList (g ++ (cs ++ g₁)))
  | _, cell => cell = none

end Parameter

mutual

/-- Whether a character stands nowhere in a value. -/
def lacks (c : Char) : Value → Bool
  | .string s => !s.toList.contains c
  | .array items => itemsLack c items
  | .object members => membersLack c members
  | _ => true

/-- Whether a character stands nowhere in some values. -/
def itemsLack (c : Char) : List Value → Bool
  | [] => true
  | v :: more => lacks c v && itemsLack c more

/-- Whether a character stands nowhere in some members. -/
def membersLack (c : Char) : List (String × Value) → Bool
  | [] => true
  | (k, v) :: more => !k.toList.contains c && lacks c v && membersLack c more

end

/-- Whether a database takes a value: no text in it has the character of number zero. -/
def Parameter.isBindable : Parameter → Bool
  | text s => !s.toList.contains '\x00'
  | texts l => l.all fun s => !s.toList.contains '\x00'
  | json v => lacks '\x00' v
  | _ => true

/-- Whether a comparison of two numbers is true. -/
def Comparison.ofInts : Comparison → Int → Int → Bool
  | equal, m, n => m = n
  | greater, m, n => n < m
  | atLeast, m, n => n ≤ m
  | less, m, n => m < n

/-- Whether a comparison of two values is true.  Nothing that is compared with null is. -/
def Comparison.holds : Comparison → Parameter → Parameter → Bool
  | c, .int m, .int n => c.ofInts m n
  | c, .micros m, .micros n => c.ofInts m n
  | .equal, .text s, .text t => s = t
  | _, _, _ => false

/-! ## §2. Rows. -/

/-- A row: what has been stored in each column. -/
abbrev Row : Type := Column → Parameter

/-- The parameter of a number. -/
def Query.parameter (q : Query) (n : Nat) : Parameter := (q.parameters[n - 1]?).getD .null

/-- Whether a condition is true of a row. -/
def Condition.holds (q : Query) (c : Condition) (r : Row) : Bool :=
  c.comparison.holds (r c.column) (q.parameter c.parameter)

/-- Whether a question is about a row. -/
def Rows.holds (q : Query) (r : Row) : Rows → Bool
  | where_ c => c.holds q r
  | whereAll cs => cs.all fun c => c.holds q r

/-- A row with a column changed. -/
def Row.set (r : Row) (c : Column) (p : Parameter) : Row := fun d => if d = c then p else r d

/-- A row with a column changed as an assignment says; the row was `old` before the statement. -/
def Assignment.apply (q : Query) (old r : Row) : Assignment → Row
  | bound c n => Row.set r c (q.parameter n)
  | boundUnlessNull c n => Row.set r c (if (q.parameter n).isNull then old c else q.parameter n)

/-- A row after an update. -/
def Row.updated (q : Query) (assignments : List Assignment) (r : Row) : Row :=
  assignments.foldl (fun new a => a.apply q r new) r

/-- The row whose columns are the parameters in order. -/
def Query.newRow (q : Query) : Row := fun c => q.parameter (Column.all.idxOf c + 1)

/-- The columns that must hold a value. -/
def neededColumns : List Column :=
  (columnRules.filter fun r => r.rest.contains filled || r.rest.contains "PRIMARY KEY").map
    ColumnRule.column

/-- Whether the rules of the columns allow a row: nothing is missing that must be there, and the number
is above zero. -/
def Row.isAllowed (r : Row) : Bool :=
  neededColumns.all (fun c => !(r c).isNull) && Comparison.greater.holds (r .id) (.int 0)

/-- Whether two rows have the same in a column. -/
def Row.agrees (r : Row) (c : Column) (r' : Row) : Bool := Comparison.equal.holds (r c) (r' c)

/-- Whether two rows have neither one number nor one name. -/
def Row.isApart (r r' : Row) : Bool := !r.agrees .id r' && !r.agrees .username r'

/-- The rows of which some have been updated. -/
def Query.updatedRows (q : Query) (assignments : List Assignment) (key : Condition)
    (rows : List Row) : List Row :=
  rows.map fun r => if key.holds q r then Row.updated q assignments r else r

/-- Whether the table may hold some rows. -/
def areApart (rows : List Row) : Bool := decide (rows.Pairwise fun r r' => Row.isApart r r' = true)

/-! ## §3. Statements. -/

/-- The rows after a statement.  One that is refused changes nothing. -/
def Query.after (q : Query) (rows : List Row) : List Row :=
  match q.statement with
  | .insert =>
    if Row.isAllowed q.newRow && rows.all (Row.isApart q.newRow) then q.newRow :: rows else rows
  | .update assignments key =>
    let rows' := q.updatedRows assignments key rows
    if rows'.all Row.isAllowed && areApart rows' then rows' else rows
  | .delete key => rows.filter fun r => !key.holds q r
  | _ => rows

/-- What comes for a row. -/
structure Row.Shows (r : Row) (c : Cells) : Prop where
  id : c.id = (r .id).int?
  username : c.username = (r .username).text?
  role : c.role = (r .role).int?
  status : c.status = (r .status).int?
  email : c.email = (r .email).text?
  phone : c.phone = (r .phone).text?
  profile : (r .profile).ComesAs c.profile
  tags : c.tags = (r .tags).texts?
  metadata : (r .metadata).ComesAs c.metadata
  addresses : (r .addresses).ComesAs c.addresses
  createDate : c.createDate = (r .createDate).instant?
  lastLogin : c.lastLogin = (r .lastLogin).instant?

/-- Whether a row may stand before another where rows are ordered by their numbers. -/
def Row.precedes (r r' : Row) : Prop := Comparison.less.holds (r' .id) (r .id) = false

/-- The first rows, as many as a parameter says. -/
def Query.limited (q : Query) (limit : Option Nat) (rows : List Row) : List Row :=
  match limit with
  | none => rows
  | some n =>
    match q.parameter n with
    | .int k => rows.take k.toNat
    | _ => rows

/-- A statement is refused for a reason. -/
def Reply.IsRefusal (r : Reply) (state : String → Prop) : Prop :=
  ∃ s reason, state s ∧ r = .failed (.refused s reason)

/-- The replies that a statement may get.  The rules of the columns are looked at first, then whether
the number is there already, and then whether the name is. -/
def Query.Replies (q : Query) (rows : List Row) (reply : Reply) : Prop :=
  match q.statement with
  | .insert =>
    if Row.isAllowed q.newRow = false then reply.IsRefusal (· ≠ uniqueViolation)
    else if rows.any (Row.agrees q.newRow .id) then reply = .done (.numbers []) 0
    else if rows.any (Row.agrees q.newRow .username) then reply.IsRefusal (· = uniqueViolation)
    else reply = .done (.numbers [(q.newRow .id).int?]) 1
  | .select which ordered limit =>
    ∃ found cells n, found.Perm (rows.filter fun r => which.holds q r)
      ∧ (ordered = true → found.Pairwise Row.precedes)
      ∧ List.Forall₂ Row.Shows (q.limited limit found) cells ∧ reply = .done (.users cells) n
  | .update assignments key =>
    let rows' := q.updatedRows assignments key rows
    if rows'.all Row.isAllowed = false then reply.IsRefusal (· ≠ uniqueViolation)
    else if areApart rows' = false then reply.IsRefusal (· = uniqueViolation)
    else ∃ shown, reply = .done shown (rows.filter fun r => key.holds q r).length
  | .delete key => ∃ shown, reply = .done shown (rows.filter fun r => key.holds q r).length
  | .contains key => ∃ n, reply = .done (.flags [some (rows.any fun r => key.holds q r)]) n
  | .count => ∃ n, reply = .done (.numbers [some (rows.length : Int)]) n

/-- The rows after some statements on an empty table. -/
def rowsAfter (history : List Query) : List Row := history.foldl (fun rows q => q.after rows) []

/-- A statement as it may be sent: that of an operation, with what a database takes. -/
structure Query.IsSent (q : Query) : Prop where
  asked : ∃ now op, queryOf now op = .ok q
  bindable : ∀ p ∈ q.parameters, p.isBindable = true

/-- A server that does what the statements say, one after another and each as a whole. -/
def Server.IsDatabase (server : Server) : Prop :=
  ∀ (history : List Query) (q : Query), (∀ q' ∈ history ++ [q], q'.IsSent) →
    q.Replies (rowsAfter history) (server history q)

end UserDirectory.Store.Relational
