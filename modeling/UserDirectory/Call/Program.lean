import UserDirectory.Access.Claims
import UserDirectory.Service.Error
import UserDirectory.Store.Operation
import UserDirectory.Telemetry.Note
/-!
# Programs of calls

What the handler of a call does is a tree of the things it asks of the outside, each with the ways it
goes on.  Between two of them it computes and nobody can tell; so everything that other calls, the
caller and the clock can come between is in the tree.

Main statement: `Program.bind_assoc`, which makes programs a lawful monad.
-/

namespace UserDirectory.Call

open UserDirectory.Access (Claims)
open UserDirectory.Service (ServiceError)
open UserDirectory.Store (Operation)
open UserDirectory.Telemetry (Note)
open UserDirectory.Time (Instant)

/-- A program that sends responses of type `ο` and ends with an `α`. -/
inductive Program (ο α : Type) where
  | done (a : α)
  /-- asks for an operation of the store -/
  | store (op : Operation) (next : op.Outcome → Program ο α)
  /-- sends a response; the answer is whether the caller is still there -/
  | send (item : ο) (next : Bool → Program ο α)
  /-- asks whether the call goes on, that is, has not been cancelled -/
  | live (next : Bool → Program ο α)
  /-- reads the clock on the wall -/
  | clock (next : Instant → Program ο α)
  /-- writes a line in the log -/
  | note (n : Note) (next : Program ο α)
  /-- waits some milliseconds -/
  | pause (ms : Nat) (next : Program ο α)
  /-- cancels its own call and lets others have a turn -/
  | cancel (next : Program ο α)
  /-- asks for the claims of the caller, if the caller is known -/
  | claims (next : Option Claims → Program ο α)
  /-- goes through the chain once more; the answer is why it was not let through -/
  | enter (next : Option ServiceError → Program ο α)
  /-- ends what `enter` began, with the failure it ends with if there is one -/
  | leave (failure : Option ServiceError) (next : Program ο α)

namespace Program

variable {ο α β : Type}

/-- Does one program and then another that depends on how the first ended. -/
def bind : Program ο α → (α → Program ο β) → Program ο β
  | done a, f => f a
  | store op next, f => store op fun r => (next r).bind f
  | send item next, f => send item fun b => (next b).bind f
  | live next, f => live fun b => (next b).bind f
  | clock next, f => clock fun t => (next t).bind f
  | note n next, f => note n (next.bind f)
  | pause ms next, f => pause ms (next.bind f)
  | cancel next, f => cancel (next.bind f)
  | claims next, f => claims fun c => (next c).bind f
  | enter next, f => enter fun r => (next r).bind f
  | leave failure next, f => leave failure (next.bind f)

instance : Monad (Program ο) where
  pure := done
  bind := bind

/-- Nothing changes when a program is followed by nothing. -/
theorem bind_done (p : Program ο α) : p.bind done = p := by
  induction p with
  | done a => rfl
  | store op next ih => simp only [bind]; congr; funext r; exact ih r
  | send item next ih => simp only [bind]; congr; funext b; exact ih b
  | live next ih => simp only [bind]; congr; funext b; exact ih b
  | clock next ih => simp only [bind]; congr; funext t; exact ih t
  | note n next ih => simp only [bind, ih]
  | pause ms next ih => simp only [bind, ih]
  | cancel next ih => simp only [bind, ih]
  | claims next ih => simp only [bind]; congr; funext c; exact ih c
  | enter next ih => simp only [bind]; congr; funext r; exact ih r
  | leave failure next ih => simp only [bind, ih]

/-- It does not matter how three programs one after another are bracketed. -/
theorem bind_assoc {γ : Type} (p : Program ο α) (f : α → Program ο β) (g : β → Program ο γ) :
    (p.bind f).bind g = p.bind fun a => (f a).bind g := by
  induction p with
  | done a => rfl
  | store op next ih => simp only [bind]; congr; funext r; exact ih r
  | send item next ih => simp only [bind]; congr; funext b; exact ih b
  | live next ih => simp only [bind]; congr; funext b; exact ih b
  | clock next ih => simp only [bind]; congr; funext t; exact ih t
  | note n next ih => simp only [bind, ih]
  | pause ms next ih => simp only [bind, ih]
  | cancel next ih => simp only [bind, ih]
  | claims next ih => simp only [bind]; congr; funext c; exact ih c
  | enter next ih => simp only [bind]; congr; funext r; exact ih r
  | leave failure next ih => simp only [bind, ih]

instance : LawfulMonad (Program ο) :=
  LawfulMonad.mk' (Program ο) (fun p => bind_done p) (fun _ _ => rfl) (fun p f g => bind_assoc p f g)

end Program

/-! ## Actions: programs that may fail -/

/-- A program that may end with a failure. -/
abbrev Action (ο α : Type) : Type := ExceptT ServiceError (Program ο) α

namespace Action

variable {ο α : Type}

/-- The program of an action. -/
def program (a : Action ο α) : Program ο (Except ServiceError α) := ExceptT.run a

/-- The action of a program that does not fail. -/
def ofProgram (p : Program ο α) : Action ο α := ExceptT.lift p

/-- How an action ends; to learn it does not fail. -/
def outcome (a : Action ο α) : Action ο (Except ServiceError α) := ofProgram a.program

/-- The outcome of an operation of the store, whatever it is. -/
def attempt (op : Operation) : Action ο op.Outcome := ofProgram (.store op .done)

/-- The reply to an operation of the store; if there is none, the action fails. -/
def store (op : Operation) : Action ο op.Reply := do
  match ← attempt op with
  | .ok r => pure r
  | .error e => throw (.ofStore e)

/-- Writes a line in the log. -/
def note (n : Note) : Action ο Unit := ofProgram (.note n (.done ()))

/-- The time on the wall. -/
def clock : Action ο Instant := ofProgram (.clock .done)

/-- Fails if the call has been cancelled. -/
def ensureLive : Action ο Unit := do
  if ← ofProgram (.live .done) then pure () else throw .cancelled

/-- Sends a response; fails if the caller has gone. -/
def send (item : ο) : Action ο Unit := do
  if ← ofProgram (.send item .done) then pure () else throw .cancelled

/-- The claims of the caller, if the caller is known. -/
def claims : Action ο (Option Claims) := ofProgram (.claims .done)

/-- Fails with an error or goes on. -/
def ofExcept (r : Except ServiceError α) : Action ο α := ExceptT.mk (.done r)

end Action

end UserDirectory.Call
