import UserDirectory.Text.Ascii
import UserDirectory.Text.Utf8
/-!
# Metadata of a call

Headers that a caller sends along: names in small letters, values of any bytes.  A name can come more
than once; whoever looks it up finds the value that came first.
-/

namespace UserDirectory.Call

open UserDirectory.Text

/-- The headers of a call, in the order in which they came. -/
structure Metadata where
  headers : List (String × List UInt8)

namespace Metadata

/-- No headers. -/
def empty : Metadata := ⟨[]⟩

/-- The metadata with some headers, their names made small. -/
def ofHeaders (headers : List (String × List UInt8)) : Metadata :=
  ⟨headers.map fun h => (lowered h.1, h.2)⟩

/-- The metadata with one header in place of all of its name. -/
def put (m : Metadata) (name : String) (value : List UInt8) : Metadata :=
  ⟨m.headers.filter (fun h => h.1 ≠ name) ++ [(name, value)]⟩

/-- The value that came first under a name. -/
def get? (m : Metadata) (name : String) : Option (List UInt8) :=
  (m.headers.find? fun h => h.1 = name).map (·.2)

end Metadata

/-- Whether a byte may stand in a value that is read as text: a visible letter, a blank or a tab. -/
def isReadable (b : UInt8) : Bool := (0x20 ≤ b && b ≤ 0x7e) || b = 0x09

/-- The text of a value, if all its bytes may stand in a text. -/
def readValue (bytes : List UInt8) : Option (List Char) :=
  if bytes.all isReadable then some (bytes.map fun b => Char.ofNat b.toNat) else none

end UserDirectory.Call
