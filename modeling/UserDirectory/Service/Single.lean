import UserDirectory.Call.Handler
import UserDirectory.User.FieldMask
import UserDirectory.User.Payload
/-!
# Calls about one user

Adding, reading, changing and removing a user.  An action looks at its request first, then whether the
call goes on, and only then asks the store.
-/

namespace UserDirectory.Service

open UserDirectory.Call
open UserDirectory.Store (Operation StoreError)

variable {ο : Type}

/-! ## §1. What is said of bad requests. -/

/-- A user must have a number other than zero. -/
def idRequired : String := "user ID must be greater than 0"

/-- A user must have a name. -/
def usernameRequired : String := "username is required"

/-- The first user must be an admin. -/
def firstMustBeAdmin : String := "first user created must be an admin"

/-- Fails where a number is zero. -/
def needId (id : UInt32) : Action ο Unit :=
  if id = 0 then throw (.invalidArgument idRequired) else pure ()

/-! ## §2. New users. -/

/-- How many users are stored. -/
def userCount : Action ο Nat := do
  match ← Action.attempt .count with
  | .ok n => pure n
  | .error e => do
    Action.note (.countFailed e)
    throw (.internal "failed to check user count")

/-- Fails for the first user of a store, unless it is an admin. -/
def checkFirst (u : User) : Action ο Unit := do
  let n ← userCount
  if n = 0 ∧ u.role ≠ .admin then throw (.invalidArgument firstMustBeAdmin)

/-- Stores a new user. -/
def create (u : User) : Action ο Unit := do
  -- the store is asked before the user is looked at
  checkFirst u
  needId u.id
  if u.username = "" then throw (.invalidArgument usernameRequired)
  Action.store (.add u)

/-- Adds a user. -/
def addUser (u : User) : Action ο Unit := do
  Action.ensureLive
  create u
  Action.note (.userAdded u.id)

/-! ## §3. Stored users. -/

/-- Gives a user. -/
def getUser (r : GetUserRequest) : Action ο User := do
  Action.ensureLive
  needId r.id
  Action.store (.get r.id)

/-- The user of a request. -/
def needUser (u : Option User) : Action ο User :=
  match u with
  | some u => pure u
  | none => throw (.invalidArgument "user is required")

/-- A stored user with the fields of a mask taken from a patch. -/
def merged (existing patch : User) (mask : List String) : Action ο User :=
  match User.merge existing patch mask with
  | .ok u => pure u
  | .error e => throw (.invalidArgument e.message)

/-- Changes the fields of a user that are named, and gives the changed user. -/
def updateUser (r : UpdateUserRequest) : Action ο User := do
  let patch ← needUser r.user
  needId patch.id
  Action.ensureLive
  let existing ← Action.store (.get patch.id)
  -- the mask is looked at only now: a missing user is reported before a bad mask
  let changed ← merged existing patch r.updateMask
  Action.ensureLive
  Action.store (.update changed)
  Action.note (.userUpdated changed.id r.updateMask)
  pure changed

/-- Removes a user. -/
def deleteUser (r : DeleteUserRequest) : Action ο Unit := do
  Action.ensureLive
  needId r.id
  Action.store (.delete r.id)
  Action.note (.userDeleted r.id)

end UserDirectory.Service
