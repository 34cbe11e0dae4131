import UserDirectory.Store.Relational.Statement
/-!
# The table of users

How the table is made, with what its columns may hold, and the indexes beside it.
-/

namespace UserDirectory.Store.Relational

/-- What a column may hold. -/
structure ColumnRule where
  column : Column
  kind : String
  rest : List String

/-- A column that must hold a value. -/
def filled : String := "NOT NULL"

/-- The rules of the columns, in the order of the table. -/
def columnRules : List ColumnRule :=
  [⟨.id, "BIGINT", ["PRIMARY KEY", "CHECK (id > 0)"]⟩,
   ⟨.username, "TEXT", [filled, "UNIQUE"]⟩,
   ⟨.role, "INTEGER", [filled, "DEFAULT 0"]⟩,
   ⟨.status, "INTEGER", []⟩,
   ⟨.email, "TEXT", []⟩,
   ⟨.phone, "TEXT", []⟩,
   ⟨.profile, "JSONB", []⟩,
   ⟨.tags, "TEXT[]", [filled, "DEFAULT '\x7b\x7d'"]⟩,
   ⟨.metadata, "JSONB", [filled, "DEFAULT '\x7b\x7d'::jsonb"]⟩,
   ⟨.addresses, "JSONB", [filled, "DEFAULT '[]'::jsonb"]⟩,
   ⟨.createDate, "TIMESTAMPTZ", [filled, "DEFAULT NOW()"]⟩,
   ⟨.lastLogin, "TIMESTAMPTZ", []⟩]

/-- The text of a rule. -/
def ColumnRule.text (r : ColumnRule) : String :=
  " ".intercalate (r.column.name :: r.kind :: r.rest)

/-- The columns that are looked up other than by number or name. -/
def indexed : List Column := [.role, .status, .createDate]

/-- The text that makes an index of a column. -/
def indexText (c : Column) : String :=
  "CREATE INDEX IF NOT EXISTS idx_users_" ++ c.name ++ " ON users(" ++ c.name ++ ");"

/-- The remark at the head of the text; the line ends with it. -/
def remark : String := "-- Users directory"

/-- The text that makes the table. -/
def tableText : String :=
  "CREATE TABLE IF NOT EXISTS users ( " ++ commas (columnRules.map ColumnRule.text) ++ " );"

/-- The text that makes the table and its indexes. -/
def migration : String := "\n".intercalate (remark :: tableText :: indexed.map indexText)

end UserDirectory.Store.Relational
