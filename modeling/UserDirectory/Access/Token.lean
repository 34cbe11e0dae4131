import UserDirectory.Access.Bearer
import UserDirectory.Access.Mac
import UserDirectory.Text.Base64Url
import UserDirectory.Wire.Payload
/-!
# Signed tokens

A token has three parts with dots between them: a header, the claims, and a code over the first two
parts as they are written.  Who knows the secret can make the code and nobody else; so a token is
accepted when its code is the one that its first two parts have.

The code is a parameter of everything here but `Authority.ofSecret`.
-/

namespace UserDirectory.Access

open UserDirectory.Json
open UserDirectory.Text
open UserDirectory.Time (Duration Instant)

/-! ## §1. Headers. -/

/-- The ways of signing that a header can name. -/
inductive Algorithm
  | hs256 | hs384 | hs512
  | es256 | es384
  | rs256 | rs384 | rs512
  | ps256 | ps384 | ps512
  | edDSA
  deriving DecidableEq, Repr

namespace Algorithm

/-- Every way of signing. -/
def all : List Algorithm :=
  [hs256, hs384, hs512, es256, es384, rs256, rs384, rs512, ps256, ps384, ps512, edDSA]

/-- The name in a header. -/
def name : Algorithm → String
  | hs256 => "HS256"
  | hs384 => "HS384"
  | hs512 => "HS512"
  | es256 => "ES256"
  | es384 => "ES384"
  | rs256 => "RS256"
  | rs384 => "RS384"
  | rs512 => "RS512"
  | ps256 => "PS256"
  | ps384 => "PS384"
  | ps512 => "PS512"
  | edDSA => "EdDSA"

end Algorithm

/-- Anything; it is passed over. -/
def anything : Codec Unit where
  write _ := .null
  read n := stopAt n.skip

/-- The header of a token, of which only the way of signing is used. -/
def header : Codec Algorithm :=
  .record
    (.cons (.optional "typ" .string) <|
      .cons (.required "alg" (.enumeration Algorithm.name Algorithm.all)) <|
      .cons (.optional "cty" .string) <| .cons (.optional "jku" .string) <|
      .cons (.optional "jwk" anything) <| .cons (.optional "kid" .string) <|
      .cons (.optional "x5u" .string) <| .cons (.optional "x5c" (.list .string)) <|
      .cons (.optional "x5t" .string) <| .cons (.optional "x5t#S256" .string) .nil)
    false
    (fun a => (none, a, none, none, none, none, none, none, none, none, ()))
    fun (_, a, _) => some a

/-- The header that is written. -/
def issuedHeader : String :=
  (Value.object [("typ", .string "JWT"), ("alg", .string Algorithm.hs256.name)]).text

/-! ## §2. The three parts. -/

/-- A part of a token: the bytes of a text in letters. -/
def part (text : String) : List Char := Base64Url.encode (Utf8.write text.toList)

/-- The last part after a dot, and what stands before the dot. -/
def splitLast (cs : List Char) : Option (List Char × List Char) :=
  let tail := cs.reverse.takeWhile (· ≠ '.')
  match cs.reverse.dropWhile (· ≠ '.') with
  | [] => none
  | _ :: front => some (front.reverse, tail.reverse)

/-- A token as it is presented. -/
structure Parts where
  header : List Char
  payload : List Char
  code : List Char
  deriving DecidableEq

namespace Parts

/-- Splits a text at its last two dots. -/
def ofText? (token : List Char) : Option Parts := do
  let (signed, code) ← splitLast token
  let (header, payload) ← splitLast signed
  some ⟨header, payload, code⟩

/-- What the code is about. -/
def signed (p : Parts) : List Char := p.header ++ '.' :: p.payload

/-- The whole token. -/
def text (p : Parts) : List Char := p.signed ++ '.' :: p.code

/-- The way of signing that the header names. -/
def algorithm? (p : Parts) : Option Algorithm := do
  let bytes ← Base64Url.decode p.header
  (Wire.decodeDocument Access.header (.ofBytes bytes)).toOption

end Parts

/-! ## §3. The claims in a token. -/

/-- Whether a member of an object has a name. -/
def isNamed (name : String) (member : Reading String × Node) : Bool :=
  match member.1.wanted with
  | .ok key => key = name
  | .error _ => false

/-- What a node says about those a token is meant for: whether it names any, even in an empty list.
Anything else than texts says nothing, but must be free of faults; a number may be of any size. -/
def audience (n : Node) : Except Fault Bool :=
  match n with
  | .string _ => do stopAt n.heed; pure true
  | .array items _ => do stopAt n.heed; pure (items.all Node.isText)
  | .number r => do stopAt r.skipped; pure false
  | _ => do stopAt n.heed; pure false

/-- Whether an object names anyone it is meant for; it may do so once. -/
def readAudience : Node → Except Fault Bool
  | .object members _ =>
    match members.filter (isNamed "aud") with
    | [] => .ok false
    | [m] => audience m.2
    | _ => .error .mismatched
  | _ => .error .mismatched

/-- The claims in the middle part, and whether it names anyone it is meant for. -/
def readClaims (payload : List Char) : Option (Claims × Bool) := do
  let bytes ← Base64Url.decode payload
  let document := Document.ofBytes bytes
  let claims ← (Wire.decodeDocument Wire.claims document).toOption
  let meant ← (readAudience document.root).toOption
  some (claims, meant)

/-! ## §4. Issuing and accepting. -/

/-- Who issues and accepts tokens. -/
structure Authority where
  issuer : String
  /-- how many seconds a token is valid -/
  lifetime : Int64
  /-- the code of some bytes -/
  code : List UInt8 → List UInt8

/-- The seconds of a lifetime: an hour where it is zero, at most the greatest number there is. -/
def lifetimeSeconds (d : Duration) : Int64 :=
  if d = .zero then 3600 else Int64.ofNat (min d.seconds Int64.maxValue.toInt.toNat)

namespace Authority

/-- The authority that knows a secret. -/
def ofSecret (secret : String) (lifetime : Duration) (issuer : String) : Authority :=
  ⟨issuer, lifetimeSeconds lifetime, Mac.code (Utf8.write secret.toList)⟩

/-- The code of the first two parts, in letters. -/
def codeOf (a : Authority) (signed : List Char) : List Char :=
  Base64Url.encode (a.code (Utf8.write signed))

/-- A second some time after another, at most the last one there is. -/
def later (now lifetime : Int64) : Int64 :=
  Int64.ofInt (min (now.toInt + lifetime.toInt) Int64.maxValue.toInt)

/-- The claims of a token that is issued now. -/
def claimsFor (a : Authority) (who : Identity) (now : Int64) : Claims where
  userId := who.userId
  username := who.username
  email := who.email
  roles := who.roles
  issuer := a.issuer
  subject := who.userId
  issuedAt := now
  notBefore := now
  expiresAt := later now a.lifetime

/-- The token with some claims. -/
def sign (a : Authority) (claims : Claims) : List Char :=
  let signed := part issuedHeader ++ '.' :: part (Wire.encode Wire.claims claims)
  signed ++ '.' :: a.codeOf signed

/-- Issues a token. -/
def issue (a : Authority) (who : Identity) (now : Int64) : List Char :=
  a.sign (a.claimsFor who now)

/-- The claims of a token with the right code, whatever they say. -/
def verified (a : Authority) (token : List Char) : Except AuthError (Claims × Bool) := do
  let some parts := Parts.ofText? token | throw .malformedToken
  let some algorithm := parts.algorithm? | throw .malformedToken
  if algorithm ≠ .hs256 then throw .unsupportedAlgorithm
  -- the codes are compared as they are written, so each code has one form
  if parts.code ≠ a.codeOf parts.signed then throw .invalidSignature
  let some found := readClaims parts.payload | throw .malformedToken
  pure found

/-- Whether the time of a token has come and has not passed.  Negative times count as absent: a
token must say when it expires and need not say when it starts. -/
def checkTimes (claims : Claims) (now : Int64) : Except AuthError Unit :=
  if claims.expiresAt < 0 then .error .invalidClaims
  else if claims.expiresAt < now then .error .tokenExpired
  else if now < claims.notBefore then .error .invalidClaims
  else .ok ()

/-- Whether a token comes from this authority, is meant for nobody else and is about someone. -/
def checkSource (a : Authority) (claims : Claims) (meant : Bool) : Except AuthError Unit :=
  if claims.issuer ≠ a.issuer ∨ meant ∨ claims.userId = "" then .error .invalidClaims else .ok ()

/-- The claims of a token that is valid now. -/
def validate (a : Authority) (token : List Char) (now : Int64) : Except AuthError Claims := do
  let (claims, meant) ← a.verified token
  checkTimes claims now
  a.checkSource claims meant
  pure claims

/-- A new token for the bearer of one that may have expired. -/
def refresh (a : Authority) (token : List Char) (now : Int64) : Except AuthError (List Char) := do
  let (claims, meant) ← a.verified token
  a.checkSource claims meant
  pure (a.issue claims.identity now)

/-- The claims of who makes a call. -/
def authenticate (a : Authority) (metadata : Option Call.Metadata) (now : Int64) :
    Except AuthError Claims := do
  a.validate (← bearerToken metadata) now

end Authority

end UserDirectory.Access
