import UserDirectory.Json.Value
import UserDirectory.Text.Decimal
import UserDirectory.Time.Instant
/-!
# Statements for a relational database

The users stand in one table.  A statement names the parameters by their numbers, from one on, and
they are sent beside it; so no value ever stands in the text of a statement.
-/

namespace UserDirectory.Store.Relational

open UserDirectory.Text
open UserDirectory.Time (Instant)

/-! ## §1. Columns. -/

/-- The columns of the table. -/
inductive Column
  | id
  | username
  | role
  | status
  | email
  | phone
  | profile
  | tags
  | metadata
  | addresses
  | createDate
  | lastLogin
  deriving DecidableEq, Repr

namespace Column

/-- Every column, in the order of the table. -/
def all : List Column :=
  [id, username, role, status, email, phone, profile, tags, metadata, addresses, createDate,
   lastLogin]

/-- The name of a column. -/
def name : Column → String
  | id => "id"
  | username => "username"
  | role => "role"
  | status => "status"
  | email => "email"
  | phone => "phone"
  | profile => "profile"
  | tags => "tags"
  | metadata => "metadata"
  | addresses => "addresses"
  | createDate => "create_date"
  | lastLogin => "last_login"

end Column

/-! ## §2. Parameters. -/

/-- A value beside a statement.  An instant is sent as microseconds from the start of 2000. -/
inductive Parameter
  | null
  | int (n : Int)
  | text (s : String)
  | texts (l : List String)
  | json (v : Json.Value)
  | micros (n : Int)

/-- An instant as it is sent. -/
def Parameter.instant (t : Instant) : Parameter := micros t.microsSince2000

/-- A value that may be missing. -/
def Parameter.optional {α : Type} (f : α → Parameter) : Option α → Parameter
  | none => null
  | some a => f a

/-! ## §3. Statements. -/

/-- How a column is compared with a parameter. -/
inductive Comparison
  | equal
  | greater
  | atLeast
  | less
  deriving DecidableEq, Repr

/-- The sign of a comparison. -/
def Comparison.sign : Comparison → String
  | equal => "="
  | greater => ">"
  | atLeast => ">="
  | less => "<"

/-- A column compared with the parameter of a number. -/
structure Condition where
  column : Column
  comparison : Comparison
  parameter : Nat
  deriving DecidableEq

/-- The rows that a question is about. -/
inductive Rows
  /-- those that satisfy one condition -/
  | where_ (condition : Condition)
  /-- those that satisfy all of some conditions, which may be none -/
  | whereAll (conditions : List Condition)
  deriving DecidableEq

/-- What a column is set to. -/
inductive Assignment
  /-- the parameter of a number -/
  | bound (column : Column) (parameter : Nat)
  /-- the parameter of a number, or what it was where that is null -/
  | boundUnlessNull (column : Column) (parameter : Nat)
  deriving DecidableEq

/-- What is asked of the database. -/
inductive Statement
  /-- add a row, its columns being the parameters in order, unless there is one of its number -/
  | insert
  /-- give rows, in the order of their numbers where `ordered`, at most as many as a parameter says -/
  | select (rows : Rows) (ordered : Bool) (limit : Option Nat)
  /-- change the row of a number -/
  | update (assignments : List Assignment) (key : Condition)
  /-- remove the row of a number -/
  | delete (key : Condition)
  /-- tell whether there is a row of a number -/
  | contains (key : Condition)
  /-- tell how many rows there are -/
  | count
  deriving DecidableEq

/-- A statement and its parameters, in the order of their numbers. -/
structure Query where
  statement : Statement
  parameters : List Parameter

/-! ## §4. The text of a statement. -/

/-- Texts with a comma and a blank between them. -/
def commas (l : List String) : String := ", ".intercalate l

/-- The place of a parameter. -/
def placeholder (n : Nat) : String := "$" ++ Decimal.text n

/-- The names of all columns. -/
def columnList : String := commas (Column.all.map Column.name)

/-- The text of a condition. -/
def Condition.text (c : Condition) : String :=
  c.column.name ++ " " ++ c.comparison.sign ++ " " ++ placeholder c.parameter

/-- The text of the rows that a question is about. -/
def Rows.text : Rows → String
  | where_ c => "WHERE " ++ c.text
  | whereAll cs => "WHERE TRUE" ++ String.join (cs.map fun c => " AND " ++ c.text)

/-- The text of an assignment. -/
def Assignment.text : Assignment → String
  | bound c n => c.name ++ " = " ++ placeholder n
  | boundUnlessNull c n => c.name ++ " = COALESCE(" ++ placeholder n ++ ", " ++ c.name ++ ")"

/-- The text of the greatest number of rows. -/
def limitText : Option Nat → String
  | none => ""
  | some n => " LIMIT " ++ placeholder n

/-- The text of a statement. -/
def Statement.text : Statement → String
  | insert =>
    "INSERT INTO users ( " ++ columnList ++ " ) VALUES ("
      ++ commas ((List.range Column.all.length).map fun i => placeholder (i + 1))
      ++ ") ON CONFLICT (id) DO NOTHING RETURNING id"
  | select rows ordered limit =>
    "SELECT " ++ columnList ++ " FROM users " ++ rows.text
      ++ (if ordered then " ORDER BY id" else "") ++ limitText limit
  | update assignments key =>
    "UPDATE users SET " ++ commas (assignments.map Assignment.text) ++ " WHERE " ++ key.text
  | delete key => "DELETE FROM users WHERE " ++ key.text
  | contains key => "SELECT EXISTS(SELECT 1 FROM users WHERE " ++ key.text ++ ")"
  | count => "SELECT COUNT(*) FROM users"

end UserDirectory.Store.Relational
