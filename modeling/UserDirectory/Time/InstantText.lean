import UserDirectory.Text.Ascii
import UserDirectory.Text.Blank
import UserDirectory.Text.Decimal
import UserDirectory.Time.Instant
/-!
# Instants as text

An instant is written as date, `T`, time of day and `Z`, with as many groups of three fraction
digits as it needs.  Reading is more generous: other offsets from universal time, parts of one
digit, blanks between the parts and around the whole.
-/

namespace UserDirectory.Time

open UserDirectory.Text

/-! ## §1. Writing. -/

/-- A year is written with four digits; outside 0 to 9999 it carries a sign. -/
def writeYear (y : Int) : List Char :=
  if 0 ≤ y ∧ y ≤ 9999 then Decimal.writePadded 4 y.toNat
  else (if y < 0 then '-' else '+') :: Decimal.writePadded 4 y.natAbs

/-- The fraction of a second, with no, three, six or nine digits: the fewest that lose nothing. -/
def writeFraction (nanos : Nat) : List Char :=
  if nanos = 0 then []
  else if nanos % 1_000_000 = 0 then '.' :: Decimal.writePadded 3 (nanos / 1_000_000)
  else if nanos % 1_000 = 0 then '.' :: Decimal.writePadded 6 (nanos / 1_000)
  else '.' :: Decimal.writePadded 9 nanos

/-- A number of at most two digits, written with two. -/
def writePair (n : Nat) : List Char := Decimal.writePadded 2 n

/-- An instant as text; a leap second is the second 60 of its minute. -/
def Instant.write (t : Instant) : List Char :=
  let date := dateOfDay (t.seconds / daySeconds)
  let second := (t.seconds % daySeconds).toNat
  let leap := t.nanos / 1_000_000_000
  writeYear date.year ++ '-' :: writePair date.month ++ '-' :: writePair date.day
    ++ 'T' :: writePair (second / 3600) ++ ':' :: writePair (second / 60 % 60)
    ++ ':' :: writePair (second % 60 + leap) ++ writeFraction (t.nanos % 1_000_000_000) ++ ['Z']

/-- An instant as text. -/
def Instant.text (t : Instant) : String := String.ofList t.write

/-! ## §2. Reading. -/

/-- A number of at least one and at most `width` digits, and what follows it. -/
def readNumber (width : Nat) (cs : List Char) : Option (Nat × List Char) :=
  go width 0 cs false
where
  /-- The flag tells that a digit has been read. -/
  go : Nat → Nat → List Char → Bool → Option (Nat × List Char)
    | left + 1, acc, c :: cs, started =>
      match Decimal.digit? c with
      | some d => go left (acc * 10 + d) cs true
      | none => if started then some (acc, c :: cs) else none
    | _, acc, cs, started => if started then some (acc, cs) else none

/-- A year: a sign and any number of digits, or up to four digits. -/
def readYear (cs : List Char) : Option (Int × List Char) :=
  match trimStart cs with
  | '-' :: rest => (readNumber rest.length rest).map fun (n, more) => (-(n : Int), more)
  | '+' :: rest => (readNumber rest.length rest).map fun (n, more) => ((n : Int), more)
  | rest => (readNumber 4 rest).map fun (n, more) => ((n : Int), more)

/-- A number of one or two digits after blanks. -/
def readPair (cs : List Char) : Option (Nat × List Char) :=
  readNumber 2 (trimStart cs)

/-- What follows a certain character that stands after blanks. -/
def expect (mark : Char) (cs : List Char) : Option (List Char) :=
  match trimStart cs with
  | c :: rest => if c = mark then some rest else none
  | [] => none

/-- The nanoseconds of a fraction, if one follows; digits after the ninth are dropped. -/
def readFraction (cs : List Char) : Option (Nat × List Char) :=
  match cs with
  | '.' :: rest => do
    let (n, more) ← readNumber 9 rest
    let used := rest.length - more.length
    some (n * Nat.pow 10 (9 - used), more.dropWhile Char.isDigit)
  | _ => some (0, cs)

/-- Two digits, the first of them below `bound`. -/
def readTwoDigits (bound : Nat) : List Char → Option (Nat × List Char)
  | a :: b :: rest => do
    let tens ← Decimal.digit? a
    let ones ← Decimal.digit? b
    if tens < bound then some (tens * 10 + ones, rest) else none
  | _ => none

/-- Whether a character stands between the hours and minutes of an offset. -/
def parts (c : Char) : Bool := c == ':' || isBlank c

/-- The hours and minutes of an offset, in seconds below a day. -/
def readHoursMinutes (cs : List Char) : Option (Nat × List Char) := do
  let (hours, cs) ← readTwoDigits 10 cs
  let (minutes, cs) ← readTwoDigits 6 (cs.dropWhile parts)
  if hours < 24 then some (hours * 3600 + minutes * 60, cs) else none

/-- The offset from universal time, in seconds. -/
def readOffset (cs : List Char) : Option (Int × List Char) :=
  match trimStart cs with
  | c :: rest =>
    if sameLetters ((c :: rest).take 3) ['U', 'T', 'C'] then some (0, rest.drop 2)
    else if c = 'Z' ∨ c = 'z' then some (0, rest)
    else if c = '+' then (readHoursMinutes rest).map fun (n, more) => ((n : Int), more)
    else if c = '-' ∨ c = '−' then
      (readHoursMinutes rest).map fun (n, more) => (-(n : Int), more)
    else none
  | [] => none

/-- The mark between date and time of day. -/
def readMark : List Char → Option (List Char)
  | c :: rest => if c = 'T' ∨ c = 't' ∨ c = ' ' then some rest else none
  | [] => none

/-- Reads an instant from the whole of a text. -/
def Instant.read (cs : List Char) : Option Instant := do
  let (year, cs) ← readYear cs
  let cs ← expect '-' cs
  let (month, cs) ← readPair cs
  let cs ← expect '-' cs
  let (day, cs) ← readPair cs
  let cs ← readMark cs
  let (hour, cs) ← readPair cs
  let cs ← expect ':' cs
  let (minute, cs) ← readPair cs
  let cs ← expect ':' cs
  let (second, cs) ← readPair cs
  let (nanos, cs) ← readFraction cs
  let (offset, cs) ← readOffset cs
  let date : Date := ⟨year, month, day⟩
  if trimStart cs = [] ∧ date.isValid ∧ -262143 ≤ year ∧ year ≤ 262142 ∧ hour < 24 ∧ minute < 60
      ∧ second ≤ 60 then
    let clock : Int := hour * 3600 + minute * 60 + (min second 59 : Nat)
    Instant.of? (dayOfDate date * daySeconds + clock - offset)
      (nanos + if second = 60 then 1_000_000_000 else 0)
  else none

end UserDirectory.Time
