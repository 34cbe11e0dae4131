import UserDirectory.Text.Base64Url
import UserDirectory.Text.Decimal
import UserDirectory.Text.Utf8
/-!
# Page tokens

A page token says after which user a listing goes on.  It is the text `after:` and the number of the
user, written in letters that are safe in an address.

Main statement: `after?_ofId`, a token leads to the user it was made for.
-/

namespace UserDirectory.Store.PageToken

open UserDirectory.Text

/-- What every token starts with, before it is written in letters. -/
def mark : List Char := ['a', 'f', 't', 'e', 'r', ':']

/-- The token for going on after a user. -/
def ofId (id : UInt32) : String :=
  String.ofList (Base64Url.encode (Utf8.write (mark ++ Decimal.write id.toNat)))

/-- What follows a first part, if a text starts with it. -/
def afterMark : List Char → List Char → Option (List Char)
  | [], cs => some cs
  | _ :: _, [] => none
  | m :: ms, c :: cs => if c = m then afterMark ms cs else none

/-- The user after whom a listing goes on, if the text is a token. -/
def after? (token : String) : Option UInt32 := do
  let bytes ← Base64Url.decode token.toList
  let cs ← Utf8.unstrayed? (Utf8.read bytes)
  let digits ← afterMark mark cs
  let n ← (Decimal.read UInt32.size digits).toOption
  some (UInt32.ofNat n)

theorem afterMark_append (ms cs : List Char) : afterMark ms (ms ++ cs) = some cs := by
  induction ms with
  | nil => rfl
  | cons m ms ih => simp [afterMark, ih]

/-- A token leads to the user it was made for. -/
theorem after?_ofId (id : UInt32) : after? (ofId id) = some id := by
  simp only [after?, ofId, String.toList_ofList, Base64Url.decode_encode, bind, Option.bind,
    Utf8.read_write, Utf8.unstrayed?_map_some, afterMark_append,
    Decimal.read_write (show id.toNat < UInt32.size from id.toNat_lt), Except.toOption,
    UInt32.ofNat_toNat]

end UserDirectory.Store.PageToken
