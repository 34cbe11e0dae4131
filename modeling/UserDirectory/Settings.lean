import UserDirectory.Access.Policy
import UserDirectory.SortedMap
import UserDirectory.Text.Ascii
import UserDirectory.Text.Blank
import UserDirectory.Text.Decimal
/-!
# Settings

The settings of the server come from the variables of its environment.  A number that cannot be read
or is zero counts as absent; a wrong policy is an error, and so is a missing secret where callers
are to be authenticated.
-/

namespace UserDirectory

open UserDirectory.Access (PolicyKind)
open UserDirectory.Text

/-- The variables of an environment. -/
abbrev Environment := SortedMap String String

/-- How the server is set up. -/
structure Settings where
  databaseUrl : Option String
  authEnabled : Bool
  secret : String
  issuer : String
  /-- the lifetime of a token in seconds -/
  lifetime : Nat
  policy : PolicyKind
  /-- the seconds between two refreshes of the snapshot -/
  refreshInterval : Nat
  printMetrics : Bool
  /-- how many responses of a stream may wait for their reader -/
  streamBuffer : Nat
  deriving DecidableEq

/-- Why the settings cannot be had. -/
inductive SettingsError
  /-- callers are to be authenticated, but there is no secret -/
  | secretMissing
  /-- the policy is of no kind -/
  | unknownPolicy (name : String)
  deriving DecidableEq, Repr

/-- The sentence for a person. -/
def SettingsError.message : SettingsError → String
  | .secretMissing => "JWT_SECRET must be set when AUTH_ENABLED is on"
  | .unknownPolicy name => "AUTHZ_POLICY must be 'static' or 'snapshot', got '" ++ name ++ "'"

namespace Settings

/-- The lifetime of a token where none is set, in seconds. -/
def defaultLifetime : Nat := 3600

/-- The issuer where none is set. -/
def defaultIssuer : String := "roster"

/-- The words that turn a switch on. -/
def yesWords : List String := ["1", "true", "yes", "on"]

/-- Whether a switch is on. -/
def flag (env : Environment) (name : String) : Bool :=
  (env.get? name).any fun v => yesWords.contains (lowered (trimmed v))

/-- A number below 2^64 that is not zero. -/
def positive? (env : Environment) (name : String) : Option Nat := do
  let v ← env.get? name
  let n ← (Decimal.read UInt64.size (trim v.toList)).toOption
  if n = 0 then none else some n

/-- A text that is not empty. -/
def nonempty? (env : Environment) (name : String) : Option String :=
  (env.get? name).filter (· ≠ "")

/-- The kind of policy that a word means. -/
def policyOf (word : String) : Except SettingsError PolicyKind :=
  let name := lowered (trimmed word)
  if name = "static" then .ok .rules
  else if name = "snapshot" then .ok .snapshot
  else .error (.unknownPolicy name)

/-- The kind of policy that is set. -/
def policyIn (env : Environment) : Except SettingsError PolicyKind :=
  match env.get? "AUTHZ_POLICY" with
  | none => .ok .rules
  | some word => policyOf word

/-- The secret that is set; without authentication there need be none. -/
def secretIn (env : Environment) (authEnabled : Bool) : Except SettingsError String :=
  match nonempty? env "JWT_SECRET" with
  | some secret => .ok secret
  | none => if authEnabled then .error .secretMissing else .ok ""

/-- The issuer that is set. -/
def issuerIn (env : Environment) : String := (env.get? "JWT_ISSUER").getD defaultIssuer

/-- The settings of an environment. -/
def ofEnvironment (env : Environment) : Except SettingsError Settings := do
  let authEnabled := flag env "AUTH_ENABLED"
  let secret ← secretIn env authEnabled
  let policy ← policyIn env
  pure {
    databaseUrl := nonempty? env "DATABASE_URL"
    authEnabled
    secret
    issuer := issuerIn env
    lifetime := (positive? env "JWT_EXPIRY").getD defaultLifetime
    policy
    refreshInterval := (positive? env "AUTHZ_REFRESH_INTERVAL").getD 60
    printMetrics := flag env "PRINT_METRICS"
    streamBuffer := (positive? env "STREAM_BUFFER").getD 32 }

/-- Settings for trying things out: callers are authenticated, and users are kept in memory. -/
def trial : Settings where
  databaseUrl := none
  authEnabled := true
  secret := "test-jwt-secret-key-12345"
  issuer := "roster-test"
  lifetime := defaultLifetime
  policy := .rules
  refreshInterval := 60
  printMetrics := false
  streamBuffer := 8

end Settings

end UserDirectory
