import UserDirectory.Text.Decimal
/-!
# JSON values and their text

Values as the service writes them: numbers are whole, and the members of an object keep the order
in which they are given.  The text has no blanks between its parts.
-/

namespace UserDirectory.Json

open UserDirectory.Text

/-- A value of the format. -/
inductive Value where
  | null
  | bool (b : Bool)
  | int (n : Int)
  | string (s : String)
  | array (items : List Value)
  | object (members : List (String × Value))
  deriving Inhabited, Repr

/-- The small letter or digit for a number below sixteen. -/
def hexDigit (n : Nat) : Char :=
  if n < 10 then Char.ofNat (48 + n) else Char.ofNat (87 + n)

/-- One character inside quotes: a quote, a backslash and the control characters are escaped. -/
def escape (c : Char) : List Char :=
  if c = '"' then ['\\', '"']
  else if c = '\\' then ['\\', '\\']
  else if c = '\x08' then ['\\', 'b']
  else if c = '\t' then ['\\', 't']
  else if c = '\n' then ['\\', 'n']
  else if c = '\x0c' then ['\\', 'f']
  else if c = '\r' then ['\\', 'r']
  else if c.toNat < 0x20 then
    ['\\', 'u', '0', '0', hexDigit (c.toNat / 16), hexDigit (c.toNat % 16)]
  else [c]

/-- A text in quotes. -/
def quote (s : String) : List Char := '"' :: s.toList.flatMap escape ++ ['"']

mutual

/-- The text of a value. -/
def Value.write : Value → List Char
  | .null => ['n', 'u', 'l', 'l']
  | .bool true => ['t', 'r', 'u', 'e']
  | .bool false => ['f', 'a', 'l', 's', 'e']
  | .int n => Decimal.writeInt n
  | .string s => quote s
  | .array items => '[' :: Value.writeItems items
  | .object members => '{' :: Value.writeMembers members

/-- The items of an array and the bracket that closes it. -/
def Value.writeItems : List Value → List Char
  | [] => [']']
  | [v] => v.write ++ [']']
  | v :: w :: more => v.write ++ ',' :: Value.writeItems (w :: more)

/-- The members of an object and the brace that closes it. -/
def Value.writeMembers : List (String × Value) → List Char
  | [] => ['}']
  | [(k, v)] => quote k ++ ':' :: v.write ++ ['}']
  | (k, v) :: m :: more => quote k ++ ':' :: v.write ++ ',' :: Value.writeMembers (m :: more)

end

/-- The text of a value. -/
def Value.text (v : Value) : String := String.ofList v.write

end UserDirectory.Json
