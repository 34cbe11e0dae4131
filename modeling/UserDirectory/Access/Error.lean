/-!
# Why a caller is turned away

Authentication asks who a caller is, permission asks what the caller may do.
-/

namespace UserDirectory.Access

/-- Why a caller is not known. -/
inductive AuthError
  /-- the call carries no metadata at all -/
  | missingMetadata
  /-- the metadata holds no credential -/
  | missingAuthHeader
  /-- the credential is no bearer token -/
  | invalidAuthHeader
  /-- the bearer token has no letters -/
  | emptyToken
  /-- the signature is not that of the token's contents -/
  | invalidSignature
  /-- the text is no token -/
  | malformedToken
  /-- the token is signed in a way that is not accepted -/
  | unsupportedAlgorithm
  /-- the token was valid once -/
  | tokenExpired
  /-- the token says something that is not accepted -/
  | invalidClaims
  /-- nobody has asked who the caller is -/
  | noClaims
  /-- something went wrong that is not the caller's business -/
  | internal (reason : String)
  deriving DecidableEq, Repr

/-- The sentence for a caller; nothing of the credential stands in it. -/
def AuthError.message : AuthError → String
  | .missingMetadata => "Missing metadata"
  | .missingAuthHeader => "Missing authorization header"
  | .invalidAuthHeader => "Invalid authorization header format, expected 'Bearer <token>'"
  | .emptyToken => "Empty token"
  | .invalidSignature => "Invalid token signature"
  | .malformedToken => "Malformed token"
  | .unsupportedAlgorithm => "Unsupported token algorithm"
  | .tokenExpired => "Token expired"
  | .invalidClaims => "Invalid token claims"
  | .noClaims => "No authentication claims found"
  | .internal _ => "Internal server error"

/-- Why a known caller may not do what they ask for. -/
inductive PermissionError
  /-- a rule forbids the method -/
  | denied (method : String)
  /-- no rule speaks of the method -/
  | unmatched (method : String)
  /-- there are no rules yet -/
  | notLoaded
  /-- the caller has none of the roles -/
  | missingRole (required : String)
  deriving DecidableEq, Repr

/-- The sentence for a caller. -/
def PermissionError.message : PermissionError → String
  | .denied method => "access to " ++ method ++ " denied"
  | .unmatched method => "no authorization rule covers " ++ method
  | .notLoaded => "authorization policy not loaded"
  | .missingRole required => "insufficient permissions, required roles: " ++ required

end UserDirectory.Access
