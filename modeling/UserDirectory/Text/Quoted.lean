import UserDirectory.Text.Unshown
/-!
# Texts in quotes

For people who read the log, a text stands in quotes: quotes and backslashes in it are escaped, and
characters that are not shown are written by number.
-/

namespace UserDirectory.Text.Quoted

/-- The digits of a number to the base sixteen, small and as few as possible. -/
def hexDigits (n : Nat) : List Char := Nat.toDigits 16 n

/-- One character inside quotes. -/
def escape (c : Char) : List Char :=
  if c = '\x00' then ['\\', '0']
  else if c = '\t' then ['\\', 't']
  else if c = '\r' then ['\\', 'r']
  else if c = '\n' then ['\\', 'n']
  else if c = '\\' then ['\\', '\\']
  else if c = '"' then ['\\', '"']
  else if isUnshown c then '\\' :: 'u' :: '\x7b' :: hexDigits c.toNat ++ ['\x7d']
  else [c]

/-- A text in quotes. -/
def write (s : String) : List Char := '"' :: s.toList.flatMap escape ++ ['"']

/-- Texts in quotes, with commas between them. -/
def writeAll (l : List String) : List Char := (l.map write).intersperse [',', ' '] |>.flatten

/-- A list of texts, in square brackets. -/
def list (l : List String) : String := String.ofList ('[' :: writeAll l ++ [']'])

/-- A set of texts, in braces. -/
def set (l : List String) : String := String.ofList ('\x7b' :: writeAll l ++ ['\x7d'])

end UserDirectory.Text.Quoted
