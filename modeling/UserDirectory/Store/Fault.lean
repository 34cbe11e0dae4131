import UserDirectory.Store.Error
/-!
# Planned failures

A plan for trying out what happens when a store is slow or fails: it names an operation, how often
that operation still goes through, and what befalls it then.
-/

namespace UserDirectory.Store

/-- What befalls some operations. -/
structure Fault where
  /-- the name of the operation -/
  operation : String
  /-- how many operations of the name still go through -/
  skip : Nat
  /-- how many operations it befalls after that -/
  times : Nat
  /-- the milliseconds that the operation is held up -/
  delay : Nat
  /-- whether the latest call made without the chain is cancelled then -/
  cancels : Bool
  /-- the error instead of the outcome -/
  error : Option StoreError
  deriving DecidableEq

namespace Fault

/-- What befalls an operation that nothing befalls. -/
def none_ (operation : String) : Fault := ⟨operation, 0, 0, 0, false, none⟩

/-- What befalls the next operation of a name, and the plans that are left.  The first plan for the
name that is not used up counts. -/
def meet (operation : String) : List Fault → Fault × List Fault
  | [] => (none_ operation, [])
  | f :: more =>
    if f.operation = operation ∧ f.times ≠ 0 then
      -- a plan that still lets the operation through hides the plans after it
      if f.skip = 0 then (f, { f with times := f.times - 1 } :: more)
      else (none_ operation, { f with skip := f.skip - 1 } :: more)
    else
      let (met, left) := meet operation more
      (met, f :: left)

end Fault

end UserDirectory.Store
