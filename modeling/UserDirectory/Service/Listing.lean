import UserDirectory.Call.Handler
import UserDirectory.User.Payload
/-!
# Listings

The users that satisfy some conditions are sent one after another, in the order of their numbers; who
goes on after the last one of a page asks for the next page.
-/

namespace UserDirectory.Service

open UserDirectory.Call
open UserDirectory.Store (ListFilter)
open UserDirectory.Time (Duration Instant)

/-- Sends users one after another, for as long as the call goes on. -/
def sendAll : List User → Action User Unit
  | [] => pure ()
  | u :: more => do
    Action.ensureLive
    Action.send u
    sendAll more

/-- The instant before which users must have been created, if the request says how long ago.  It has
to be an instant that there is. -/
def createdBefore (age : Option Duration) : Action User (Option Instant) :=
  match age with
  | none => pure none
  | some d => do
    let now ← Action.clock
    match now.minus? d with
    | some t => pure (some t)
    | none => throw (.invalidArgument "older_than out of range")

/-- The filter of a request. -/
def filterOf (r : ListUsersRequest) (before : Option Instant) : ListFilter :=
  ⟨r.createdSince, before, r.status, r.pageSize, r.pageToken⟩

/-- Sends the users that satisfy the conditions of a request. -/
def listUsers (r : ListUsersRequest) : Action User Unit := do
  -- a bad age is reported even to a caller who has left
  let before ← createdBefore r.olderThan
  Action.ensureLive
  let users : List User ← Action.store (.list (filterOf r before))
  if users.isEmpty then throw (.notFound "no users found")
  sendAll users

/-- Sends the users with a role. -/
def listUsersByRole (r : UserRoleRequest) : Action User Unit := do
  Action.ensureLive
  let users : List User ← Action.store (.listByRole r.role)
  if users.isEmpty then throw (.notFound ("no users found with role " ++ r.role.name))
  sendAll users

end UserDirectory.Service
