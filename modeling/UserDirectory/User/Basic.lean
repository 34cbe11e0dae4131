import UserDirectory.SortedMap
import UserDirectory.Text.Ascii
import UserDirectory.Text.Blank
import UserDirectory.Time.Instant
/-!
# Users

The stored entity and what it consists of.  Roles and states have a name and a number; both are
fixed, because names are written into tokens and payloads and numbers into tables.

Main statements: `Role.ofCode?_code`, `AccountStatus.ofCode?_code`, the numbers tell the values apart.
-/

namespace UserDirectory

open UserDirectory.Text
open UserDirectory.Time (Instant)

/-! ## §1. Roles. -/

/-- What a user is allowed to do in general. -/
inductive Role
  | guest
  | member
  | admin
  | moderator
  deriving DecidableEq, Repr, Inhabited

namespace Role

/-- Every role. -/
def all : List Role := [guest, member, admin, moderator]

/-- The name that stands in payloads and tokens. -/
def name : Role → String
  | guest => "GUEST"
  | member => "MEMBER"
  | admin => "ADMIN"
  | moderator => "MODERATOR"

/-- The number that stands in tables. -/
def code : Role → Int
  | guest => 0
  | member => 1
  | admin => 2
  | moderator => 3

/-- The role with a number. -/
def ofCode? (n : Int) : Option Role := all.find? fun r => r.code = n

/-- The role that a person means by a text: blanks around it and the case of its letters do not
matter. -/
def ofText? (s : String) : Option Role :=
  all.find? fun r => sameLetters (trim s.toList) r.name.toList

/-- The sentence for a text that names no role. -/
def unknown (s : String) : String := "unknown role: " ++ s

/-- The number of a role is that of no other. -/
theorem ofCode?_code (r : Role) : ofCode? r.code = some r := by cases r <;> rfl

end Role

/-! ## §2. States of an account. -/

/-- Whether an account can be used. -/
inductive AccountStatus
  | inactive
  | active
  | suspended
  | deleted
  deriving DecidableEq, Repr

namespace AccountStatus

/-- Every state. -/
def all : List AccountStatus := [inactive, active, suspended, deleted]

/-- The name that stands in payloads. -/
def name : AccountStatus → String
  | inactive => "INACTIVE"
  | active => "ACTIVE"
  | suspended => "SUSPENDED"
  | deleted => "DELETED"

/-- The number that stands in tables. -/
def code : AccountStatus → Int
  | inactive => 0
  | active => 1
  | suspended => 2
  | deleted => 3

/-- The state with a number. -/
def ofCode? (n : Int) : Option AccountStatus := all.find? fun s => s.code = n

/-- The number of a state is that of no other. -/
theorem ofCode?_code (s : AccountStatus) : ofCode? s.code = some s := by cases s <;> rfl

end AccountStatus

/-! ## §3. The entity. -/

/-- What an address is used for. -/
inductive AddressKind
  | home
  | work
  | other
  deriving DecidableEq, Repr

namespace AddressKind

/-- Every kind of address. -/
def all : List AddressKind := [home, work, other]

/-- The name that stands in payloads. -/
def name : AddressKind → String
  | home => "HOME"
  | work => "WORK"
  | other => "OTHER"

end AddressKind

/-- A postal address. -/
structure Address where
  kind : AddressKind
  street : String
  city : String
  state : String
  postalCode : String
  country : String
  isPrimary : Bool
  deriving DecidableEq

/-- What a user shows of themselves. -/
structure Profile where
  displayName : String
  bio : String
  avatarUrl : String
  dateOfBirth : Option Instant
  preferences : SortedMap String Int32
  deriving DecidableEq

/-- A user of the directory. -/
structure User where
  id : UInt32
  username : String
  role : Role
  status : Option AccountStatus
  email : Option String
  phone : Option String
  profile : Option Profile
  tags : List String
  metadata : SortedMap String String
  addresses : List Address
  createDate : Option Instant
  lastLogin : Option Instant
  deriving DecidableEq

end UserDirectory
