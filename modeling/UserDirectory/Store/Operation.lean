import UserDirectory.Store.Filter
/-!
# The operations of a store

The eight things that can be asked of a store, each done at one instant and as a whole.
-/

namespace UserDirectory.Store

open UserDirectory.Time (Instant)

/-- What can be asked of a store. -/
inductive Operation
  | add (user : User)
  | get (id : UInt32)
  | update (user : User)
  | delete (id : UInt32)
  | list (filter : ListFilter)
  | listByRole (role : Role)
  | contains (id : UInt32)
  | count
  deriving DecidableEq

namespace Operation

/-- What is given back when nothing goes wrong. -/
def Reply : Operation → Type
  | add _ => Unit
  | get _ => User
  | update _ => Unit
  | delete _ => Unit
  | list _ => List User
  | listByRole _ => List User
  | contains _ => Bool
  | count => Nat

/-- The name of an operation. -/
def name : Operation → String
  | add _ => "add"
  | get _ => "get"
  | update _ => "update"
  | delete _ => "delete"
  | list _ => "list"
  | listByRole _ => "list_by_role"
  | contains _ => "exists"
  | count => "count"

/-- What an operation gives: its reply, or why there is none. -/
abbrev Outcome (op : Operation) : Type := Except StoreError op.Reply

end Operation

/-- A new user as it is stored: created now if nothing else is said, and active. -/
def withDefaults (u : User) (now : Instant) : User :=
  { u with
    createDate := some (u.createDate.getD now)
    status := some (u.status.getD .active) }

end UserDirectory.Store
