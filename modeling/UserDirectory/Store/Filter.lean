import UserDirectory.Store.Error
import UserDirectory.Store.PageToken
import UserDirectory.User.Basic
/-!
# Filters for listings

Which users a listing is about, after which one it starts and how many it gives.
-/

namespace UserDirectory.Store

open UserDirectory.Time (Instant)

/-- What users a listing is about. -/
structure ListFilter where
  /-- only users created at this instant or later -/
  createdSince : Option Instant
  /-- only users created before this instant -/
  createdBefore : Option Instant
  status : Option AccountStatus
  /-- how many users at most; zero sets no limit -/
  pageSize : UInt32
  pageToken : Option String
  deriving DecidableEq

namespace ListFilter

/-- The filter that every user passes. -/
def everyone : ListFilter := ⟨none, none, none, 0, none⟩

/-- A condition that holds where nothing is asked. -/
def asks {α : Type} (wanted : Option α) (holds : α → Bool) : Bool :=
  match wanted with
  | none => true
  | some a => holds a

/-- Whether the filter is about a user.  A user without a date of creation satisfies no condition on
that date. -/
def accepts (f : ListFilter) (u : User) : Bool :=
  asks f.createdSince (fun since => u.createDate.any (since ≤ ·))
    && asks f.createdBefore (fun before => u.createDate.any (· < before))
    && asks f.status (fun s => u.status = some s)

/-- The user after whom the listing starts, if it does not start at the first. -/
def cursor (f : ListFilter) : Except StoreError (Option UInt32) :=
  match f.pageToken with
  | none => .ok none
  | some token =>
    match PageToken.after? token with
    | some id => .ok (some id)
    | none => .error (.invalidArgument "invalid page token")

/-- How many users the listing gives at most. -/
def limit (f : ListFilter) : Option Nat :=
  if f.pageSize = 0 then none else some f.pageSize.toNat

/-- The first users of a listing, as many as it may give. -/
def firstPage {α : Type} (f : ListFilter) (l : List α) : List α :=
  match f.limit with
  | none => l
  | some n => l.take n

end ListFilter

end UserDirectory.Store
