import UserDirectory.Access.Token
import UserDirectory.Settings
/-!
# The token tool

Issues a token for whoever the environment names, with the secret and the issuer of the server, so
that the server accepts it.
-/

namespace UserDirectory.TokenTool

open UserDirectory.Access (Authority Identity RoleNames)
open UserDirectory.Text
open UserDirectory.Time (Duration)

/-- Why no token is issued. -/
inductive ToolError
  /-- a variable that must be there is not -/
  | missing (name : String)
  | secretEmpty
  | lifetimeUnreadable (text : String) (fault : Decimal.Fault)
  | unknownRole (text : String)
  deriving DecidableEq, Repr

namespace ToolError

/-- The sentence for a person. -/
def message : ToolError → String
  | missing name => name ++ " must be set"
  | secretEmpty => "JWT_SECRET must not be empty"
  | lifetimeUnreadable text _ => "JWT_EXPIRY must be a number of seconds, got '" ++ text ++ "'"
  | unknownRole text => "invalid role in TOKEN_ROLES: " ++ text

/-- The sentence for what lies behind it. -/
def cause? : ToolError → Option String
  | missing _ => some "environment variable not found"
  | secretEmpty => none
  | lifetimeUnreadable _ fault => some fault.message
  | unknownRole text => some (Role.unknown text)

/-- A text with each line of it moved to the right. -/
def indented (s : String) : List Char :=
  "    ".toList ++ s.toList.flatMap fun c => if c = '\n' then "\n    ".toList else [c]

/-- What is printed about it. -/
def report (e : ToolError) : String :=
  let cause : List Char :=
    match e.cause? with
    | none => []
    | some text => "\n\nCaused by:\n".toList ++ indented text
  "Error: " ++ e.message ++ String.ofList cause ++ "\n"

end ToolError

/-- The variable with a name. -/
def need (env : Environment) (name : String) : Except ToolError String :=
  match env.get? name with
  | some v => .ok v
  | none => .error (.missing name)

/-- The secret; it may not be empty. -/
def secretIn (env : Environment) : Except ToolError String := do
  let secret ← need env "JWT_SECRET"
  if secret = "" then throw .secretEmpty
  pure secret

/-- The lifetime in seconds; unlike the server, the tool insists on a number. -/
def lifetimeIn (env : Environment) : Except ToolError Nat :=
  match env.get? "JWT_EXPIRY" with
  | none => .ok Settings.defaultLifetime
  | some text =>
    match Decimal.read UInt64.size (trim text.toList) with
    | .ok n => .ok n
    | .error fault => .error (.lifetimeUnreadable text fault)

/-- The parts of a text between commas. -/
def splitCommas : List Char → List (List Char)
  | [] => [[]]
  | c :: cs =>
    if c = ',' then [] :: splitCommas cs
    else
      match splitCommas cs with
      | [] => [[c]]
      | first :: more => (c :: first) :: more

/-- The words of a list with commas: without blanks around them, and none of them empty. -/
def words (s : String) : List String :=
  (((splitCommas s.toList).map trim).filter (· ≠ [])).map String.ofList

/-- The roles that some words mean. -/
def rolesOf : List String → Except ToolError (List Role)
  | [] => .ok []
  | word :: more => do
    match Role.ofText? word with
    | none => throw (.unknownRole word)
    | some r => do
      let rs ← rolesOf more
      pure (r :: rs)

/-- Who the environment names. -/
def identityIn (env : Environment) (userId : String) : Except ToolError Identity := do
  let roles ← rolesOf (words ((env.get? "TOKEN_ROLES").getD ""))
  pure {
    userId
    username := (env.get? "TOKEN_USERNAME").getD userId
    email := (env.get? "TOKEN_EMAIL").getD ""
    roles := .ofNames (roles.map Role.name) }

/-- The token that is issued at a second. -/
def run (env : Environment) (now : Int64) : Except ToolError String := do
  let secret ← secretIn env
  let userId ← need env "TOKEN_USER_ID"
  let lifetime ← lifetimeIn env
  let identity ← identityIn env userId
  let authority := Authority.ofSecret secret (.ofSeconds lifetime) (Settings.issuerIn env)
  pure (String.ofList (authority.issue identity now))

end UserDirectory.TokenTool
