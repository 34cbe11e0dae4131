import UserDirectory.Access.Error
import UserDirectory.Call.Metadata
/-!
# Bearer tokens in metadata

A caller presents a token in the header `authorization`, after the word `Bearer` and one blank.
-/

namespace UserDirectory.Access

open UserDirectory.Call (Metadata readValue)

/-- The header that holds the credential. -/
def authorizationHeader : String := "authorization"

/-- The word before the token, and the blank between them. -/
def bearerWord : List Char := ['B', 'e', 'a', 'r', 'e', 'r', ' ']

/-- The token that a call presents. -/
def bearerToken (metadata : Option Metadata) : Except AuthError (List Char) :=
  match metadata with
  | none => .error .missingMetadata
  | some m =>
    match m.get? authorizationHeader with
    | none => .error .missingAuthHeader
    | some value =>
      match readValue value with
      | none => .error .invalidAuthHeader
      | some text =>
        if bearerWord.isPrefixOf text then
          match text.drop bearerWord.length with
          | [] => .error .emptyToken
          | token => .ok token
        else .error .invalidAuthHeader

end UserDirectory.Access
