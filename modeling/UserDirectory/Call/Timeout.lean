import UserDirectory.Call.Metadata
import UserDirectory.Text.Decimal
import UserDirectory.Time.Duration
/-!
# Timeouts that callers ask for

A caller writes how long an answer may take as one to eight digits and a letter for the unit.  The
reader takes the last byte of the text for the unit, so a text of fitting size that ends in a
character of several bytes is torn.
-/

namespace UserDirectory.Call

open UserDirectory.Text
open UserDirectory.Time (Duration)

/-- The nanoseconds of a unit of time. -/
def unitNanos? (c : Char) : Option Nat :=
  if c = 'H' then some (3_600_000_000_000)
  else if c = 'M' then some (60_000_000_000)
  else if c = 'S' then some 1_000_000_000
  else if c = 'm' then some 1_000_000
  else if c = 'u' then some 1_000
  else if c = 'n' then some 1
  else none

/-- What a text says about a timeout. -/
inductive TimeoutReading
  /-- it states a length of time -/
  | states (d : Duration)
  /-- it is no timeout -/
  | refused
  /-- its last byte is not a character -/
  | torn
  deriving DecidableEq

/-- The bytes that a text is written with. -/
def byteCount (cs : List Char) : Nat := cs.foldl (fun n c => n + c.utf8Size) 0

/-- The timeout of some digits and a unit. -/
def timeoutOf (digits : List Char) (unit : Char) : TimeoutReading :=
  if digits.all Char.isDigit then
    match Decimal.readDigits UInt64.size digits, unitNanos? unit with
    | .ok n, some u =>
      match Duration.ofNanos? (n * u) with
      | some d => .states d
      | none => .refused
    | _, _ => .refused
  else .refused

/-- Reads a timeout. -/
def readTimeout (cs : List Char) : TimeoutReading :=
  if 2 ≤ byteCount cs ∧ byteCount cs ≤ 9 then
    match cs.getLast? with
    | some unit => if unit.utf8Size = 1 then timeoutOf cs.dropLast unit else .torn
    | none => .refused
  else .refused

/-- The header that holds the timeout of a call. -/
def timeoutHeader : String := "grpc-timeout"

/-- The timeout that the metadata of a call ask for. -/
def Metadata.timeout? (m : Metadata) : Option Duration := do
  let value ← m.get? timeoutHeader
  let text ← readValue value
  match readTimeout text with
  | .states d => some d
  | _ => none

end UserDirectory.Call
