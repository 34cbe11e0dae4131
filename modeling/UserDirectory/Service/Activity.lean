import UserDirectory.Call.Handler
import UserDirectory.Text.Decimal
import UserDirectory.User.Payload
/-!
# Reported activities

Each report is answered before the next one is taken.  A report of a login changes when the user has
last logged in; that it could not be changed is noted, and the report is acknowledged all the same.
-/

namespace UserDirectory.Service

open UserDirectory.Call
open UserDirectory.Store (StoreError)
open UserDirectory.Text
open UserDirectory.Time (Instant)

variable {ο : Type}

/-- The answer to a report about a user who is not stored. -/
def unknownUser (id : UInt32) (now : Instant) : UserActivityResponse :=
  ⟨id, false, "User " ++ Decimal.text id.toNat ++ " not found", now⟩

/-- The answer to a report about a stored user. -/
def recorded (a : UserActivity) (now : Instant) : UserActivityResponse :=
  ⟨a.userId, true,
    "Activity " ++ a.kind.name ++ " recorded for user " ++ Decimal.text a.userId.toNat, now⟩

/-- Changes when a user has last logged in; gives why that could not be done. -/
def touchLogin (id : UInt32) (at_ : Instant) : Action ο (Except StoreError Unit) := do
  match ← Action.attempt (.get id) with
  | .error e => pure (.error e)
  | .ok (u : User) => Action.attempt (.update { u with lastLogin := some at_ })

/-- When a login happened: as reported, or now. -/
def loginInstant (a : UserActivity) : Action ο Instant :=
  match a.timestamp with
  | some t => pure t
  | none => Action.clock

/-- Does what a report of a login asks for. -/
def recordLogin (a : UserActivity) : Action ο Unit := do
  let at_ ← loginInstant a
  match ← touchLogin a.userId at_ with
  | .ok () => pure ()
  | .error e => Action.note (.loginFailed a.userId e)

/-- Takes one report and makes the answer to it. -/
def recordActivity (a : UserActivity) : Action ο UserActivityResponse := do
  let known : Bool ← Action.store (.contains a.userId)
  if known then
    if a.kind = .login then recordLogin a
    let now ← Action.clock
    pure (recorded a now)
  else
    let now ← Action.clock
    pure (unknownUser a.userId now)

/-- Answers one report. -/
def activityItem (_ : Unit) (a : UserActivity) : Action UserActivityResponse Unit := do
  Action.ensureLive
  let response ← recordActivity a
  Action.send response

/-- Answers the reports that arrive. -/
def userActivityStream : Handler UserActivity UserActivityResponse Unit Unit :=
  .ofItems () activityItem fun _ => pure ()

end UserDirectory.Service
