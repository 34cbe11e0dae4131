import UserDirectory.Access.Error
import UserDirectory.Service.Status
import UserDirectory.Store.Error
/-!
# What can go wrong in a call

Main statement: `ofStore_eq_of_isBackend`, a caller cannot tell one failure of the database from
another.
-/

namespace UserDirectory.Service

open UserDirectory.Access (AuthError PermissionError)
open UserDirectory.Store (StoreError)

/-- The kinds of failure that a caller can tell apart. -/
inductive ErrorKind
  | invalidArgument
  | notFound
  | alreadyExists
  | unauthenticated
  | permissionDenied
  | internal
  | cancelled
  deriving DecidableEq, Repr

namespace ErrorKind

/-- The name that stands in the log. -/
def name : ErrorKind → String
  | invalidArgument => "INVALID_ARGUMENT"
  | notFound => "NOT_FOUND"
  | alreadyExists => "ALREADY_EXISTS"
  | unauthenticated => "UNAUTHENTICATED"
  | permissionDenied => "PERMISSION_DENIED"
  | internal => "INTERNAL"
  | cancelled => "CANCELLED"

/-- The code that is sent to the caller. -/
def code : ErrorKind → StatusCode
  | invalidArgument => .invalidArgument
  | notFound => .notFound
  | alreadyExists => .alreadyExists
  | unauthenticated => .unauthenticated
  | permissionDenied => .permissionDenied
  | internal => .internal
  | cancelled => .cancelled

end ErrorKind

/-- Why a call failed. -/
inductive ServiceError
  | invalidArgument (message : String)
  | notFound (message : String)
  | alreadyExists (message : String)
  | unauthenticated (cause : AuthError)
  | permissionDenied (cause : PermissionError)
  | internal (message : String)
  | cancelled
  deriving DecidableEq, Repr

namespace ServiceError

/-- The sentence for the caller. -/
def message : ServiceError → String
  | invalidArgument m => m
  | notFound m => m
  | alreadyExists m => m
  | unauthenticated cause => cause.message
  | permissionDenied cause => cause.message
  | internal m => m
  | cancelled => "call cancelled"

/-- The kind of a failure; an internal failure of authentication is internal. -/
def kind : ServiceError → ErrorKind
  | invalidArgument _ => .invalidArgument
  | notFound _ => .notFound
  | alreadyExists _ => .alreadyExists
  | unauthenticated (.internal _) => .internal
  | unauthenticated _ => .unauthenticated
  | permissionDenied _ => .permissionDenied
  | internal _ => .internal
  | cancelled => .cancelled

/-- What is told to the caller. -/
def status (e : ServiceError) : Status := ⟨e.kind.code, e.message⟩

/-- The failure of a call whose store refused; how the database failed stays hidden. -/
def ofStore (e : StoreError) : ServiceError :=
  match e with
  | .notFound _ => notFound e.message
  | .alreadyExists _ => alreadyExists e.message
  | .usernameTaken _ => alreadyExists e.message
  | .invalidArgument _ => invalidArgument e.message
  | .database _ => internal "storage backend failure"
  | .corrupt _ => internal "storage backend failure"

end ServiceError

/-- Whether a store failed because of what is behind it. -/
def isBackend : StoreError → Bool
  | .database _ => true
  | .corrupt _ => true
  | _ => false

/-- Two failures of what is behind a store look alike. -/
theorem ofStore_eq_of_isBackend {e f : StoreError} (he : isBackend e = true)
    (hf : isBackend f = true) : ServiceError.ofStore e = ServiceError.ofStore f := by
  cases e <;> cases f <;> simp_all [isBackend, ServiceError.ofStore]

end UserDirectory.Service
