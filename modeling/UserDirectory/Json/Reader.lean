import UserDirectory.Json.Node
import UserDirectory.Text.Decimal
import UserDirectory.Text.Utf8
/-!
# Reading JSON text

From the symbols of a text to its `Document`.  A function that reads one value gives its node and
what follows it; nothing follows where the text breaks off.
-/

namespace UserDirectory.Json

open UserDirectory.Text
open UserDirectory.Text.Utf8 (Symbol)

/-- What is left of a text after a part of it, if reading can go on. -/
abbrev Rest := Option (List Symbol)

/-- The blanks of the format. -/
def isGap (s : Symbol) : Bool :=
  s == some ' ' || s == some '\n' || s == some '\t' || s == some '\r'

/-- A text without the blanks at its start. -/
def skipGaps (cs : List Symbol) : List Symbol := cs.dropWhile isGap

/-! ## §1. Words. -/

/-- Reads the remaining letters of a word. -/
def readWord (node : Node) : List Char → List Symbol → Node × Rest
  | [], cs => (node, some cs)
  | _ :: _, [] => (.brokenWord .cut, none)
  | w :: word, c :: cs =>
    if c = some w then readWord node word cs else (.brokenWord .malformed, none)

/-! ## §2. Numbers. -/

/-- The least number that is nearer to 2^1024 than to the greatest double. -/
def doubleLimit : Nat := Nat.pow 2 1024 - Nat.pow 2 970

/-- Whether the number `digits * 10 ^ exponent` is too great for a double. -/
def exceedsDouble (digits : Nat) (exponent : Int) : Bool :=
  let places : Int := (Decimal.write digits).length + exponent
  if digits = 0 ∨ places ≤ 308 then false
  else if 310 < places then true
  else if 0 ≤ exponent then doubleLimit ≤ digits * Nat.pow 10 exponent.toNat
  else doubleLimit * Nat.pow 10 (-exponent).toNat ≤ digits

/-- The digits at the start of a text: their value, their number, and what follows. -/
def takeDigits (acc count : Nat) : List Symbol → Nat × Nat × List Symbol
  | some c :: cs =>
    match Decimal.digit? c with
    | some d => takeDigits (acc * 10 + d) (count + 1) cs
    | none => (acc, count, some c :: cs)
  | cs => (acc, count, cs)

/-- A number that breaks off: at the end of the text it is cut for a reader, though malformed for
who passes over it. -/
def brokenNumber (rest : List Symbol) : Node × Rest :=
  (.number ⟨.error (if rest.isEmpty then .cut else .malformed), some .malformed⟩, none)

/-- A number with its fraction and exponent read. -/
def fractionNode (digits : Nat) (exponent : Int) (rest : List Symbol) : Node × Rest :=
  (.number ⟨if exceedsDouble digits exponent then .error .malformed else .ok .fraction, none⟩,
    some rest)

/-- The sign of an exponent, and what follows. -/
def takeSign : List Symbol → Bool × List Symbol
  | some '+' :: cs => (false, cs)
  | some '-' :: cs => (true, cs)
  | cs => (false, cs)

/-- Reads on after the mark of an exponent. -/
def readExponent (digits : Nat) (scale : Int) (cs : List Symbol) : Node × Rest :=
  let (negative, cs) := takeSign cs
  match takeDigits 0 0 cs with
  | (_, 0, rest) => brokenNumber rest
  | (e, _, rest) => fractionNode digits (if negative then scale - e else scale + e) rest

/-- Whether a symbol marks an exponent. -/
def isExponentMark (s : Symbol) : Bool := s == some 'e' || s == some 'E'

/-- Reads on after the point of a fraction. -/
def readFraction (digits : Nat) (cs : List Symbol) : Node × Rest :=
  match takeDigits digits 0 cs with
  | (_, 0, rest) => brokenNumber rest
  | (all, places, rest) =>
    match rest with
    | c :: more => if isExponentMark c then readExponent all (-places) more
                   else fractionNode all (-places) rest
    | [] => fractionNode all (-places) rest

/-- A number in integer form: whole if it has at most 64 bits and is no negative zero. -/
def integerNode (negative : Bool) (digits : Nat) (rest : List Symbol) : Node × Rest :=
  if negative then
    if digits = 0 ∨ 9_223_372_036_854_775_808 < digits then fractionNode digits 0 rest
    else (.number (.ok (.int (-(digits : Int)))), some rest)
  else if digits < UInt64.size then (.number (.ok (.int digits)), some rest)
  else fractionNode digits 0 rest

/-- Whether the first symbol is a digit. -/
def startsWithDigit : List Symbol → Bool
  | some c :: _ => c.isDigit
  | _ => false

/-- Reads a number after its sign: no zero stands before another digit. -/
def readNumber (negative : Bool) (cs : List Symbol) : Node × Rest :=
  match takeDigits 0 0 cs with
  | (_, 0, rest) => brokenNumber rest
  | (digits, count, rest) =>
    if cs.head? = some (some '0') ∧ 1 < count then
      (.number ⟨.error .malformed, some .malformed⟩, none)
    else
      match rest with
      | some '.' :: more => readFraction digits more
      | c :: more => if isExponentMark c then readExponent digits 0 more
                     else integerNode negative digits rest
      | [] => integerNode negative digits rest

/-! ## §3. Texts in quotes. -/

/-- The number that a hexadecimal digit stands for. -/
def hexValue? (s : Symbol) : Option Nat :=
  match s with
  | none => none
  | some c =>
    let n := c.toNat
    if 48 ≤ n ∧ n ≤ 57 then some (n - 48)
    else if 65 ≤ n ∧ n ≤ 70 then some (n - 55)
    else if 97 ≤ n ∧ n ≤ 102 then some (n - 87)
    else none

/-- The number of bytes of a symbol. -/
def symbolBytes (s : Symbol) : Nat := s.elim 1 Char.utf8Size

/-- The bytes that some symbols are written with. -/
def byteCount (cs : List Symbol) : Nat := cs.foldl (fun n c => n + symbolBytes c) 0

/-- The number that four hexadecimal digits at the start of a text stand for.  A text of fewer than
four bytes is cut there. -/
def hexFour : List Symbol → Except Fault Nat
  | a :: b :: c :: d :: rest =>
    match hexValue? a, hexValue? b, hexValue? c, hexValue? d with
    | some a, some b, some c, some d => .ok (((a * 16 + b) * 16 + c) * 16 + d)
    | _, _, _, _ =>
      if 4 ≤ byteCount (a :: b :: c :: d :: rest) then .error .malformed
      else .error .cut
  | cs => if 4 ≤ byteCount cs then .error .malformed else .error .cut

/-- The character of an escape with one letter. -/
def simpleEscape? (c : Char) : Option Char :=
  match c with
  | '"' => some '"'
  | '\\' => some '\\'
  | '/' => some '/'
  | 'b' => some '\x08'
  | 'f' => some '\x0c'
  | 'n' => some '\n'
  | 'r' => some '\r'
  | 't' => some '\t'
  | _ => none

/-- The second half of a surrogate pair, which must follow the first as another escape. -/
def trailingHalf : List Symbol → Except Fault Nat
  | [] => .error .cut
  | some '\\' :: [] => .error .cut
  | some '\\' :: some 'u' :: cs => do
    let n ← hexFour cs
    if 0xDC00 ≤ n ∧ n ≤ 0xDFFF then .ok n else .error .malformed
  | _ => .error .malformed

/-- What has been read of a text in quotes: its characters, the last first, or what is wrong. -/
abbrev Scanned := Except Fault (List Char)

/-- Adds a character to what has been read. -/
def Scanned.push (s : Scanned) (c : Char) : Scanned := s.map (c :: ·)

/-- Notes a fault; an earlier one stays. -/
def Scanned.note (s : Scanned) (f : Fault) : Scanned := s.bind fun _ => .error f

/-- A text that breaks off with a fault for every reader. -/
def brokenText (s : Scanned) (f : Fault) : Reading String × Rest :=
  (⟨(s.note f).map fun _ => "", some f⟩, none)

/-- A whole text; strays are noticed at its end. -/
def closedText (s : Scanned) (stray : Bool) (rest : List Symbol) : Reading String × Rest :=
  (⟨(if stray then s.note .malformed else s).map fun cs => String.ofList cs.reverse, none⟩,
    some rest)

/-- The character of one `\u` escape, by its number and what follows the escape; the flag tells
that the following escape is its second half. -/
def unicodeEscape (n : Nat) (rest : List Symbol) : Except Fault (Char × Bool) :=
  if 0xDC00 ≤ n ∧ n ≤ 0xDFFF then .error .malformed
  else if 0xD800 ≤ n ∧ n ≤ 0xDBFF then
    (trailingHalf rest).map fun m =>
      (Char.ofNat ((n - 0xD800) * 0x400 + (m - 0xDC00) + 0x10000), true)
  else .ok (Char.ofNat n, false)

/-- Reads a text up to its closing quote.  `pending` says that the next escape has been read
already, as the second half of a pair. -/
def readText (s : Scanned) (stray pending : Bool) : List Symbol → Reading String × Rest
  | [] => brokenText s .cut
  | none :: cs => readText s true false cs
  | some '"' :: cs => closedText s stray cs
  | some '\\' :: [] => brokenText s .cut
  | some '\\' :: some 'u' :: cs =>
    match hexFour cs with
    | .error f => brokenText s f
    | .ok n =>
      match cs with
      | _ :: _ :: _ :: _ :: rest =>
        if pending then readText s stray false rest
        else
          match unicodeEscape n rest with
          | .ok (c, half) => readText (s.push c) stray half rest
          | .error f => readText (s.note f) stray false rest
      | _ => brokenText s .cut
  | some '\\' :: some c :: cs =>
    match simpleEscape? c with
    | some d => readText (s.push d) stray false cs
    | none => brokenText s .malformed
  | some '\\' :: none :: _ => brokenText s .malformed
  | some c :: cs =>
    if c.toNat < 0x20 then brokenText s .malformed else readText (s.push c) stray false cs

/-! ## §4. Values. -/

/-- A break at a fault, for a reader who asks for a name there as well. -/
def breakAt (f : Fault) : Option Break := some ⟨f, false, f⟩

/-- A break after a comma. -/
def breakAfterComma (f : Fault) : Option Break := some ⟨f, true, f⟩

/-- What a reader who asks for a name meets in a node that is no text. -/
def Node.faultAsName : Node → Fault
  | .number ⟨.error f, _⟩ => f
  | .string ⟨.error f, _⟩ => f
  | .brokenWord f => f
  | .absent f => f
  | _ => .mismatched

mutual

/-- Reads one value, after blanks. -/
def readNode : Nat → List Symbol → Node × Rest
  | 0, _ => (.absent .cut, none)
  | fuel + 1, cs =>
    match skipGaps cs with
    | [] => (.absent .cut, none)
    | some 'n' :: rest => readWord .null ['u', 'l', 'l'] rest
    | some 't' :: rest => readWord (.bool true) ['r', 'u', 'e'] rest
    | some 'f' :: rest => readWord (.bool false) ['a', 'l', 's', 'e'] rest
    | some '"' :: rest =>
      let (text, more) := readText (.ok []) false false rest
      (.string text, more)
    | some '[' :: rest =>
      let (items, ending, more) := readItems fuel true rest
      (.array items ending, more)
    | some '{' :: rest =>
      let (members, ending, more) := readMembers fuel true rest
      (.object members ending, more)
    | some '-' :: rest => readNumber true rest
    | rest => if startsWithDigit rest then readNumber false rest else (.absent .malformed, none)

/-- Reads one item and the items after it. -/
def readItem : Nat → List Symbol → List Node × Option Break × Rest
  | 0, _ => ([], breakAt .cut, none)
  | fuel + 1, cs =>
    match readNode fuel cs with
    | (node, none) => ([node], breakAt .cut, none)
    | (node, some rest) =>
      let (items, ending, more) := readItems fuel false rest
      (node :: items, ending, more)

/-- Reads the items of an array from where another may begin or the array may end. -/
def readItems : Nat → Bool → List Symbol → List Node × Option Break × Rest
  | 0, _, _ => ([], breakAt .cut, none)
  | fuel + 1, first, cs =>
    match skipGaps cs with
    | [] => ([], breakAt .cut, none)
    | some ']' :: rest => ([], none, some rest)
    | rest =>
      if first then readItem fuel rest
      else
        match rest with
        | some ',' :: rest =>
          match skipGaps rest with
          | [] => ([], breakAfterComma .cut, none)
          | some ']' :: _ => ([], breakAfterComma .malformed, none)
          | rest => readItem fuel rest
        | _ => ([], breakAt .malformed, none)

/-- Reads one member, from after the quote of its key, and the members after it. -/
def readMember : Nat → List Symbol → List (Reading String × Node) × Option Break × Rest
  | 0, _ => ([], breakAt .cut, none)
  | fuel + 1, cs =>
    match readText (.ok []) false false cs with
    | (key, none) => ([(key, .absent .cut)], breakAt .cut, none)
    | (key, some rest) =>
      match skipGaps rest with
      | [] => ([(key, .absent .cut)], breakAt .cut, none)
      | some ':' :: rest =>
        match readNode fuel rest with
        | (node, none) => ([(key, node)], breakAt .cut, none)
        | (node, some rest) =>
          let (members, ending, more) := readMembers fuel false rest
          ((key, node) :: members, ending, more)
      | _ => ([(key, .absent .malformed)], breakAt .malformed, none)

/-- Reads the members of an object from where another may begin or the object may end. -/
def readMembers : Nat → Bool → List Symbol → List (Reading String × Node) × Option Break × Rest
  | 0, _, _ => ([], breakAt .cut, none)
  | fuel + 1, first, cs =>
    match skipGaps cs with
    | [] => ([], breakAt .cut, none)
    | some '}' :: rest => ([], none, some rest)
    | rest =>
      if first then
        match rest with
        | some '"' :: rest => readMember fuel rest
        | rest => ([], some ⟨.malformed, false, (readNode fuel rest).1.faultAsName⟩, none)
      else
        match rest with
        | some ',' :: rest =>
          match skipGaps rest with
          | [] => ([], breakAfterComma .cut, none)
          | some '"' :: rest => readMember fuel rest
          | _ => ([], breakAfterComma .malformed, none)
        | _ => ([], breakAt .malformed, none)

end

/-- Reads the whole of a text. -/
def Document.ofSymbols (cs : List Symbol) : Document :=
  match readNode (3 * cs.length + 3) cs with
  | (node, none) => ⟨node, none⟩
  | (node, some rest) => ⟨node, if (skipGaps rest).isEmpty then none else some .malformed⟩

/-- Reads the whole of a text. -/
def Document.ofText (s : String) : Document := .ofSymbols (s.toList.map some)

/-- Reads the whole of a text that is given by its bytes. -/
def Document.ofBytes (bs : List UInt8) : Document := .ofSymbols (Utf8.read bs)

end UserDirectory.Json
