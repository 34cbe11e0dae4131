import UserDirectory.User.Basic
/-!
# Field masks

A field mask names the fields of a user that a change is about.  The number and the date of creation
can never be changed, so they have no name here; a mask that names nothing means every field that
has one.

Main statement: `ofPath_path`, the path of a field is that of no other.
-/

namespace UserDirectory

/-- The fields of a user that can be changed. -/
inductive UserField
  | role
  | username
  | email
  | phone
  | profile
  | tags
  | metadata
  | status
  | lastLogin
  | addresses
  deriving DecidableEq, Repr

/-- Why a path in a mask is refused. -/
inductive MaskError
  /-- the path means the number of the user -/
  | identity
  /-- the path means nothing -/
  | unknownPath (path : String)
  deriving DecidableEq, Repr

/-- The sentence for the caller. -/
def MaskError.message : MaskError → String
  | .identity => "cannot update id field"
  | .unknownPath path => "invalid field path: " ++ path

namespace UserField

/-- Every field that can be changed. -/
def all : List UserField :=
  [role, username, email, phone, profile, tags, metadata, status, lastLogin, addresses]

/-- The path that means a field. -/
def path : UserField → String
  | role => "role"
  | username => "username"
  | email => "email"
  | phone => "phone"
  | profile => "profile"
  | tags => "tags"
  | metadata => "metadata"
  | status => "status"
  | lastLogin => "last_login"
  | addresses => "addresses"

/-- The field that a path means. -/
def ofPath (s : String) : Except MaskError UserField :=
  if s = "id" then .error .identity
  else
    match all.find? fun f => f.path = s with
    | some f => .ok f
    | none => .error (.unknownPath s)

/-- The fields that some paths mean, or what is wrong with the first bad one. -/
def ofPaths : List String → Except MaskError (List UserField)
  | [] => .ok []
  | s :: more => do
    let f ← ofPath s
    let fs ← ofPaths more
    pure (f :: fs)

/-- A user with one field taken from another user. -/
def copy (f : UserField) (source target : User) : User :=
  match f with
  | role => { target with role := source.role }
  | username => { target with username := source.username }
  | email => { target with email := source.email }
  | phone => { target with phone := source.phone }
  | profile => { target with profile := source.profile }
  | tags => { target with tags := source.tags }
  | metadata => { target with metadata := source.metadata }
  | status => { target with status := source.status }
  | lastLogin => { target with lastLogin := source.lastLogin }
  | addresses => { target with addresses := source.addresses }

/-- The path of a field means that field. -/
theorem ofPath_path (f : UserField) : ofPath f.path = .ok f := by
  cases f <;> rfl

end UserField

/-- The fields that a mask means. -/
def maskFields (mask : List String) : Except MaskError (List UserField) :=
  if mask.isEmpty then .ok UserField.all else UserField.ofPaths mask

/-- A user with the fields of a mask taken from a patch. -/
def User.merge (existing patch : User) (mask : List String) : Except MaskError User := do
  let fields ← maskFields mask
  pure (fields.foldl (fun u f => f.copy patch u) existing)

end UserDirectory
