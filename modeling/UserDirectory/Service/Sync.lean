import UserDirectory.Service.Single
/-!
# Bringing users in line

Each user that arrives is stored in place of the one with the same number, or added where there is
none; each is answered before the next one is taken.
-/

namespace UserDirectory.Service

open UserDirectory.Call
open UserDirectory.Store (StoreError)

variable {ο : Type}

/-- What is told to have changed when a user is replaced. -/
def replacedFields : List String := ["role", "username", "profile", "status"]

/-- What is told to have changed when a user is added. -/
def createdFields : List String := ["created"]

/-- A user with a date of creation: if it has none, that of the stored user. -/
def keepCreation (u existing : User) : User :=
  { u with createDate := u.createDate.or existing.createDate }

/-- Stores a user one way or the other; gives what has changed. -/
def syncUser (u : User) : Action ο (List String) := do
  needId u.id
  match ← Action.attempt (.get u.id) with
  | .ok existing => do
    Action.store (.update (keepCreation u existing))
    pure replacedFields
  | .error (.notFound _) => do
    create u
    pure createdFields
  | .error e => throw (.ofStore e)

/-- The answer for a user, from what has become of it. -/
def syncAnswer (id : UInt32) : Except ServiceError (List String) → SyncUserResponse
  | .ok fields => ⟨id, .success, none, fields⟩
  | .error e => ⟨id, .failed, some e.message, []⟩

/-- Brings one user in line and answers. -/
def syncItem (_ : Unit) (u : User) : Action SyncUserResponse Unit := do
  Action.ensureLive
  let outcome ← Action.outcome (syncUser u)
  if outcome matches .error .cancelled then throw .cancelled
  Action.send (syncAnswer u.id outcome)

/-- Brings the users in line that arrive. -/
def syncUsers : Handler User SyncUserResponse Unit Unit :=
  .ofItems () syncItem fun _ => pure ()

end UserDirectory.Service
