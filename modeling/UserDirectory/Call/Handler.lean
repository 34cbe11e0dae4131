import UserDirectory.Call.Program
/-!
# Handlers

A handler answers a call.  It takes the requests one after another and does a program for each, and
one more when there are none left; what it keeps in between is a value.
-/

namespace UserDirectory.Call

open UserDirectory.Service (ServiceError)

/-- How far a handler has come. -/
inductive Stage (ο σ α : Type) where
  /-- it waits for a request -/
  | awaiting (s : σ)
  /-- it answers a request -/
  | handling (p : Program ο (Except ServiceError σ))
  /-- it does what is left when there are no more requests -/
  | closing (p : Program ο (Except ServiceError α))

/-- A handler: what it does for a request and at the end, and where it starts. -/
structure Handler (ι ο σ α : Type) where
  onItem : σ → ι → Program ο (Except ServiceError σ)
  onEnd : σ → Program ο (Except ServiceError α)
  start : Stage ο σ α

namespace Handler

variable {ι ο σ α : Type}

/-- The handler that takes no requests from a stream and only does one thing. -/
def ofAction (a : Action ο α) : Handler ι ο Unit α where
  onItem s _ := .done (.ok s)
  onEnd _ := a.program
  start := .closing a.program

/-- The handler that takes requests from a stream. -/
def ofItems (s : σ) (onItem : σ → ι → Action ο σ) (onEnd : σ → Action ο α) : Handler ι ο σ α where
  onItem s x := (onItem s x).program
  onEnd s := (onEnd s).program
  start := .awaiting s

end Handler

end UserDirectory.Call
