import UserDirectory.Store.Error
import UserDirectory.Store.Relational.Statement
import UserDirectory.Wire.Payload
/-!
# Rows of the table of users

What comes back for a row is read in two steps.  First each column is read as what it should hold:
that can fail only where the database is not as it should be.  Then the row is taken for a user:
that can fail where a number in it means nothing.

Main statement: `idOf_eq_ok_iff`, which numbers in a row are numbers of users.
-/

namespace UserDirectory.Store.Relational

open UserDirectory.Json (Codec)
open UserDirectory.Text
open UserDirectory.Time (Instant)

/-! ## §1. Reading the columns. -/

/-- The columns of a row as they come; nothing stands where a column holds no value.  Nested values
come as JSON text. -/
structure Cells where
  id : Option Int
  username : Option String
  role : Option Int
  status : Option Int
  email : Option String
  phone : Option String
  profile : Option String
  tags : Option (List (Option String))
  metadata : Option String
  addresses : Option String
  createDate : Option Instant
  lastLogin : Option Instant

/-- A row of the table. -/
structure UserRow where
  id : Int
  username : String
  role : Int
  status : Option Int
  email : Option String
  phone : Option String
  profile : Option Profile
  tags : List String
  metadata : SortedMap String String
  addresses : List Address
  createDate : Instant
  lastLogin : Option Instant
  deriving DecidableEq

/-- A column cannot be read. -/
def unreadable {α : Type} (c : Column) (reason : String) : Except BackendFailure α :=
  .error (.unreadable ("\"" ++ c.name ++ "\"") reason)

/-- The value of a column that must hold one. -/
def needed {α : Type} (c : Column) : Option α → Except BackendFailure α
  | some a => .ok a
  | none => unreadable c BackendFailure.nullColumn

/-- The value in the JSON text of a column. -/
def nested {α : Type} (c : Column) (codec : Codec α) (text : String) : Except BackendFailure α :=
  match Wire.decode codec text with
  | .ok a => .ok a
  | .error _ => unreadable c "the text is no such value"

/-- The value in the JSON text of a column that may hold none. -/
def nestedOptional {α : Type} (c : Column) (codec : Codec α) :
    Option String → Except BackendFailure (Option α)
  | none => .ok none
  | some text => (nested c codec text).map some

/-- The texts in a column, each of which must be there. -/
def allTexts (c : Column) : List (Option String) → Except BackendFailure (List String)
  | [] => .ok []
  | t :: more => do
    let s ← needed c t
    let rest ← allTexts c more
    pure (s :: rest)

/-- Maps of texts, as they stand in a column. -/
def metadataCodec : Codec (SortedMap String String) := .map .string

/-- Lists of addresses, as they stand in a column. -/
def addressesCodec : Codec (List Address) := .list Wire.address

/-- Reads the columns of a row. -/
def Cells.read (r : Cells) : Except BackendFailure UserRow := do
  let id ← needed .id r.id
  let username ← needed .username r.username
  let role ← needed .role r.role
  let profile ← nestedOptional .profile Wire.profile r.profile
  let tags ← needed .tags r.tags
  let tags ← allTexts .tags tags
  let metadata ← needed .metadata r.metadata
  let metadata ← nested .metadata metadataCodec metadata
  let addresses ← needed .addresses r.addresses
  let addresses ← nested .addresses addressesCodec addresses
  let createDate ← needed .createDate r.createDate
  pure {
    id, username, role, status := r.status, email := r.email, phone := r.phone, profile, tags,
    metadata, addresses, createDate, lastLogin := r.lastLogin }

/-! ## §2. Rows as users. -/

/-- The number of a user in a row. -/
def idOf (n : Int) : Except StoreError UInt32 :=
  if 0 ≤ n ∧ n < UInt32.size then .ok (UInt32.ofNat n.toNat)
  else .error (.corrupt ("user id " ++ String.ofList (Decimal.writeInt n) ++ " out of range"))

/-- What is wrong with a code in the row of a user. -/
def badCode {α : Type} (id : UInt32) (what : String) (code : Int) : Except StoreError α :=
  .error (.corrupt ("user " ++ Decimal.text id.toNat ++ ": " ++ what ++ " code "
    ++ String.ofList (Decimal.writeInt code)))

/-- The role in the row of a user. -/
def roleOf (id : UInt32) (code : Int) : Except StoreError Role :=
  match Role.ofCode? code with
  | some r => .ok r
  | none => badCode id "role" code

/-- The state in the row of a user. -/
def statusOf (id : UInt32) : Option Int → Except StoreError (Option AccountStatus)
  | none => .ok none
  | some code =>
    match AccountStatus.ofCode? code with
    | some s => .ok (some s)
    | none => badCode id "status" code

/-- The user of a row; the number is looked at first, then the role, then the state. -/
def UserRow.toUser (r : UserRow) : Except StoreError User := do
  let id ← idOf r.id
  let role ← roleOf id r.role
  let status ← statusOf id r.status
  pure {
    id, username := r.username, role, status, email := r.email, phone := r.phone
    profile := r.profile, tags := r.tags, metadata := r.metadata, addresses := r.addresses
    createDate := some r.createDate, lastLogin := r.lastLogin }

/-- The users of some rows, or what is wrong with the first bad one. -/
def toUsers : List UserRow → Except StoreError (List User)
  | [] => .ok []
  | r :: more => do
    let u ← r.toUser
    let us ← toUsers more
    pure (u :: us)

/-! ## §3. Users as rows. -/

/-- The parameters for the columns of a user, in the order of the table. -/
def parametersOf (u : User) : List Parameter :=
  [.int u.id.toNat, .text u.username, .int u.role.code, .optional (fun s => .int s.code) u.status,
   .optional .text u.email, .optional .text u.phone,
   .optional (fun p => .json (Wire.profile.write p)) u.profile, .texts u.tags,
   .json (metadataCodec.write u.metadata), .json (addressesCodec.write u.addresses),
   .optional .instant u.createDate, .optional .instant u.lastLogin]

/-- A number in a row is that of the user with this very number, and of no other. -/
theorem idOf_eq_ok_iff {n : Int} {id : UInt32} :
    idOf n = .ok id ↔ n = id.toNat := by
  have hlt := id.toNat_lt
  simp only [idOf, UInt32.size]
  split
  · rename_i h
    simp only [Except.ok.injEq]
    constructor
    · rintro rfl
      simp only [UInt32.toNat_ofNat']
      omega
    · rintro rfl
      simp
  · simp only [reduceCtorEq, false_iff]
    omega

end UserDirectory.Store.Relational
