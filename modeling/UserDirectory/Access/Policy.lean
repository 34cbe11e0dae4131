import UserDirectory.Access.Claims
import UserDirectory.Access.Error
import UserDirectory.Service.Method
import UserDirectory.Text.Decimal
/-!
# Policies: who may call what

Two kinds of policy decide about methods.  A table of rules forbids what its rules forbid and leaves
the rest open.  A snapshot of the stored users allows what it grants and nothing else; where it knows
the caller, the role in the store counts and not what the token says.
-/

namespace UserDirectory.Access

open UserDirectory.Service (Method)
open UserDirectory.Text

/-! ## §1. Tables of rules. -/

/-- A method and the roles that may call it. -/
structure Rule where
  method : Method
  roles : List Role
  deriving DecidableEq

/-- Changes are for admins; the listing by role is for moderators too. -/
def defaultRules : List Rule :=
  [⟨.addUser, [.admin]⟩, ⟨.updateUser, [.admin]⟩, ⟨.deleteUser, [.admin]⟩,
   ⟨.batchAddUsers, [.admin]⟩, ⟨.syncUsers, [.admin]⟩,
   ⟨.listUsersByRole, [.admin, .moderator]⟩]

/-- Whether claims name one of some roles. -/
def holdsOne (claims : Claims) (roles : List Role) : Bool :=
  roles.any fun r => claims.hasRole r.name

/-- What a table says; the first rule about a method decides. -/
def approveByRules (rules : List Rule) (method : String) (claims : Claims) :
    Except PermissionError Unit :=
  match rules.find? fun r => r.method.fullName = method with
  | none => .ok ()
  | some rule => if holdsOne claims rule.roles then .ok () else .error (.denied method)

/-! ## §2. Snapshots of the stored users. -/

/-- What is granted to each stored user, under the number of the user in decimal. -/
structure Snapshot where
  grants : SortedMap String (List Method)
  deriving DecidableEq

namespace Snapshot

/-- Whether a user may do anything: nothing is said against their account. -/
def isInUse (u : User) : Bool := u.status = none || u.status = some .active

/-- What is granted to a stored user. -/
def grantsOf (u : User) : List Method := if isInUse u then Method.granted u.role else []

/-- The snapshot of some users. -/
def ofUsers (users : List User) : Snapshot :=
  ⟨.ofList (users.map fun u => (Decimal.text u.id.toNat, grantsOf u))⟩

/-- The number of users with an entry. -/
def userCount (s : Snapshot) : Nat := s.grants.size

/-- Whether a role with this very name is granted a method. -/
def roleAllows (m : Method) (name : String) : Bool :=
  Role.all.any fun r => r.name = name && (Method.granted r).contains m

/-- Whether the holder of some claims may call a method. -/
def allows (s : Snapshot) (m : Method) (claims : Claims) : Bool :=
  match s.grants.get? claims.userId with
  -- the store knows the caller, whatever the token says
  | some methods => methods.contains m
  | none => claims.roles.keys.any (roleAllows m)

end Snapshot

/-- What a snapshot says, if there is one yet. -/
def approveBySnapshot (snapshot : Option Snapshot) (method : String) (claims : Claims) :
    Except PermissionError Unit :=
  match snapshot with
  | none => .error .notLoaded
  | some s =>
    match Method.ofFullName? method with
    | none => .error (.unmatched method)
    | some m => if s.allows m claims then .ok () else .error (.denied method)

/-! ## §3. Either kind. -/

/-- The two kinds of policy. -/
inductive PolicyKind
  | rules
  | snapshot
  deriving DecidableEq, Repr

/-- The name that stands in the log. -/
def PolicyKind.name : PolicyKind → String
  | .rules => "Static"
  | .snapshot => "Snapshot"

/-- How it is decided who may call what. -/
inductive Policy
  | rules (rules : List Rule)
  | snapshot (current : Option Snapshot)
  deriving DecidableEq

/-- What a policy says about a call. -/
def Policy.approve : Policy → String → Claims → Except PermissionError Unit
  | .rules r => approveByRules r
  | .snapshot s => approveBySnapshot s

/-- Asks that a caller hold one of some roles. -/
def requireRole (claims : Claims) (roles : List Role) : Except PermissionError Unit :=
  if holdsOne claims roles then .ok ()
  else .error (.missingRole (", ".intercalate (roles.map Role.name)))

end UserDirectory.Access
