import UserDirectory.SortedMap
/-!
# Identities and claims

Who a caller is, and what a token says about its bearer.
-/

namespace UserDirectory.Access

/-- A set of role names; it is kept in the order of the names. -/
abbrev RoleNames := SortedMap String Unit

/-- The set of some role names. -/
def RoleNames.ofNames (names : List String) : RoleNames := .ofList (names.map (·, ()))

/-- Who a caller is. -/
structure Identity where
  userId : String
  username : String
  email : String
  roles : RoleNames
  deriving DecidableEq

/-- What a token says about its bearer.  Times are in seconds since 1970. -/
structure Claims where
  userId : String
  username : String
  email : String
  roles : RoleNames
  issuer : String
  subject : String
  issuedAt : Int64
  notBefore : Int64
  expiresAt : Int64
  deriving DecidableEq

namespace Claims

/-- Whether the bearer has a role. -/
def hasRole (c : Claims) (role : String) : Bool := c.roles.contains role

/-- Whether the bearer has one of some roles. -/
def hasAnyRole (c : Claims) (roles : List String) : Bool := roles.any c.hasRole

/-- Who the bearer is. -/
def identity (c : Claims) : Identity := ⟨c.userId, c.username, c.email, c.roles⟩

end Claims

end UserDirectory.Access
