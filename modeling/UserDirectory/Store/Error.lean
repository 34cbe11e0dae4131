import UserDirectory.Text.Decimal
/-!
# What can go wrong in a store

A store refuses an operation for a reason of its own, or because the database behind it failed.  What
the database said is kept for the log and is no part of the sentence for a caller.
-/

namespace UserDirectory.Store

open UserDirectory.Text

/-- How a database failed. -/
inductive BackendFailure
  /-- no connection can be had any more -/
  | closed
  /-- the database refused a statement; the state is its five-letter code for the reason -/
  | refused (state : String) (reason : String)
  /-- no row came where one was due -/
  | noRow
  /-- a column does not hold what it should -/
  | unreadable (column : String) (reason : String)
  deriving DecidableEq, Repr

namespace BackendFailure

/-- What is wrong with a column that holds nothing and should hold something. -/
def nullColumn : String := "unexpected null; try decoding as an `Option`"

/-- The sentence for the log. -/
def message : BackendFailure → String
  | closed => "attempted to acquire a connection on a closed pool"
  | refused _ reason => "error returned from database: " ++ reason
  | noRow => "no rows returned by a query that expected to return at least one row"
  | unreadable column reason => "error occurred while decoding column " ++ column ++ ": " ++ reason

end BackendFailure

/-- Why a store did not do what was asked of it. -/
inductive StoreError
  /-- there is no user with this number -/
  | notFound (id : UInt32)
  /-- there is a user with this number -/
  | alreadyExists (id : UInt32)
  /-- another user has this name -/
  | usernameTaken (username : String)
  /-- the question itself is wrong -/
  | invalidArgument (reason : String)
  /-- the database failed -/
  | database (failure : BackendFailure)
  /-- what is stored cannot be a user -/
  | corrupt (reason : String)
  deriving DecidableEq, Repr

/-- The sentence for a person. -/
def StoreError.message : StoreError → String
  | .notFound id => "user with ID " ++ Decimal.text id.toNat ++ " not found"
  | .alreadyExists id => "user with ID " ++ Decimal.text id.toNat ++ " already exists"
  | .usernameTaken username => "username " ++ username ++ " already exists"
  | .invalidArgument reason => reason
  | .database _ => "database error"
  | .corrupt reason => "corrupt stored record: " ++ reason

end UserDirectory.Store
