import UserDirectory.Service.Single
/-!
# Batches of new users

Users are added one after another.  One that is refused does not stop the others; the answer tells
which ones were refused and why.
-/

namespace UserDirectory.Service

open UserDirectory.Call
open UserDirectory.Text

/-- What has become of a batch so far. -/
structure BatchTotals where
  received : UInt32
  added : UInt32
  /-- one sentence for each refused user, in order of arrival -/
  errors : List String
  deriving DecidableEq

/-- A batch of which nothing has arrived. -/
def BatchTotals.zero : BatchTotals := ⟨0, 0, []⟩

/-- The sentence for a refused user, who was the `position`th. -/
def batchError (position : UInt32) (e : ServiceError) : String :=
  let reason :=
    if e = .invalidArgument idRequired then "ID must be greater than 0" else e.message
  "user " ++ Decimal.text position.toNat ++ ": " ++ reason

/-- Adds one user of a batch. -/
def batchItem {ο : Type} (t : BatchTotals) (u : User) : Action ο BatchTotals := do
  let received := t.received + 1
  Action.ensureLive
  match ← Action.outcome (create u) with
  | .ok () => pure { t with received, added := t.added + 1 }
  -- a cancelled call is no refused user
  | .error .cancelled => throw .cancelled
  | .error e => pure { t with received, errors := t.errors ++ [batchError received e] }

/-- Sums up a batch. -/
def batchEnd {ο : Type} (t : BatchTotals) : Action ο BatchAddUsersResponse := do
  let failed := t.received - t.added
  Action.note (.batchFinished t.received t.added failed)
  let now ← Action.clock
  pure ⟨t.received, t.added, failed, t.errors, now⟩

/-- Adds the users that arrive. -/
def batchAddUsers {ο : Type} : Handler User ο BatchTotals BatchAddUsersResponse :=
  .ofItems .zero batchItem batchEnd

end UserDirectory.Service
