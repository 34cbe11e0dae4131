import UserDirectory.SortedMap
import UserDirectory.Store.Operation
/-!
# A store in memory

The users stand in a map under their numbers.  A name belongs to one user at most.

Main statement: `perform_error`, an operation that fails changes nothing.
-/

namespace UserDirectory.Store

open UserDirectory.Time (Instant)

/-- The stored users, under their numbers. -/
abbrev Table := SortedMap UInt32 User

namespace Table

/-- Whether no user but `id` has a name. -/
def isFree (t : Table) (id : UInt32) (username : String) : Bool :=
  t.values.all fun other => other.id = id || other.username ≠ username

/-- Adds a new user. -/
def add (t : Table) (u : User) (now : Instant) : Except StoreError Table :=
  if t.contains u.id then .error (.alreadyExists u.id)
  else if t.isFree u.id u.username then .ok (t.insert u.id (withDefaults u now))
  else .error (.usernameTaken u.username)

/-- The user with a number. -/
def fetch (t : Table) (id : UInt32) : Except StoreError User :=
  match t.get? id with
  | some u => .ok u
  | none => .error (.notFound id)

/-- Puts a user in place of the one with the same number. -/
def replace (t : Table) (u : User) : Except StoreError Table :=
  if t.contains u.id then
    if t.isFree u.id u.username then .ok (t.insert u.id u)
    else .error (.usernameTaken u.username)
  else .error (.notFound u.id)

/-- Removes the user with a number. -/
def remove (t : Table) (id : UInt32) : Except StoreError Table :=
  if t.contains id then .ok (t.erase id) else .error (.notFound id)

/-- The users after a number, or all of them. -/
def after (t : Table) (cursor : Option UInt32) : List User :=
  match cursor with
  | none => t.values
  | some id => (t.filter fun e => id < e.1).values

/-- The users that a filter is about. -/
def select (t : Table) (f : ListFilter) : Except StoreError (List User) := do
  let cursor ← f.cursor
  pure (f.firstPage ((t.after cursor).filter f.accepts))

/-- The users with a role. -/
def withRole (t : Table) (r : Role) : List User := t.values.filter fun u => u.role = r

/-- A change of the table as an operation gives it: the reply tells nothing more. -/
def changed (t : Table) : Except StoreError Table → Except StoreError Unit × Table
  | .ok t' => (.ok (), t')
  | .error e => (.error e, t)

/-- Performs an operation: what it gives, and the table after it. -/
def perform (t : Table) (now : Instant) : (op : Operation) → op.Outcome × Table
  | .add u => t.changed (t.add u now)
  | .get id => (t.fetch id, t)
  | .update u => t.changed (t.replace u)
  | .delete id => t.changed (t.remove id)
  | .list f => (t.select f, t)
  | .listByRole r => (.ok (t.withRole r), t)
  | .contains id => (.ok (SortedMap.contains t id), t)
  | .count => (.ok t.size, t)

theorem changed_error {t : Table} {r : Except StoreError Table} {e : StoreError}
    (h : (t.changed r).1 = .error e) : (t.changed r).2 = t := by
  cases r with
  | ok t' => simp [changed] at h
  | error e' => rfl

/-- An operation that fails changes nothing. -/
theorem perform_error {t : Table} {now : Instant} {op : Operation} {e : StoreError}
    (h : (t.perform now op).1 = .error e) : (t.perform now op).2 = t := by
  cases op with
  | add u => exact changed_error h
  | update u => exact changed_error h
  | delete id => exact changed_error h
  | _ => rfl

end Table

end UserDirectory.Store
