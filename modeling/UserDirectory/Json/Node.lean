/-!
# JSON documents as they are met by a reader

A document is read from the left, and the first thing that is wrong decides what is wrong with it.
So what was read is kept together with where it breaks off: a `Node` is a value or the fault that
stands in its place, and an array or object may end in a fault after its last whole part.

A value that nobody asks for is only passed over.  Then some faults do not matter: a number too
great for a double, half of a surrogate pair, bytes that are no characters.  A scalar is therefore
kept with both readings.
-/

namespace UserDirectory.Json

/-- What is wrong with a document. -/
inductive Fault
  /-- it is not of the format -/
  | malformed
  /-- it is of the format, but not what was asked for -/
  | mismatched
  /-- it stops before its end -/
  | cut
  deriving DecidableEq, Repr

/-- How a scalar reads when it is asked for, and what is met when it is passed over. -/
structure Reading (α : Type) where
  wanted : Except Fault α
  skipped : Option Fault

/-- A scalar that reads alike either way. -/
def Reading.ok {α : Type} (a : α) : Reading α := ⟨.ok a, none⟩

/-- A number, as far as it can be asked for. -/
inductive Number
  /-- written without fraction, exponent or negative zero, and of at most 64 bits -/
  | int (n : Int)
  /-- any other that a double can come near -/
  | fraction
  deriving DecidableEq, Repr

/-- Where an array or object breaks off. -/
structure Break where
  fault : Fault
  /-- whether a comma has announced another part -/
  afterComma : Bool
  /-- the fault for a reader who asks for a name where a key was due -/
  asName : Fault

/-- A value, or the fault that stands where a value was due. -/
inductive Node where
  | null
  | bool (b : Bool)
  | number (n : Reading Number)
  | string (s : Reading String)
  | array (items : List Node) (ending : Option Break)
  | object (members : List (Reading String × Node)) (ending : Option Break)
  /-- a word that breaks off -/
  | brokenWord (f : Fault)
  /-- nothing that a value could begin with -/
  | absent (f : Fault)

/-- A document: its value, and what is wrong with what follows it. -/
structure Document where
  root : Node
  rest : Option Fault

mutual

/-- The first fault that is met by who passes over a value. -/
def Node.skip : Node → Option Fault
  | .null => none
  | .bool _ => none
  | .number n => n.skipped
  | .string s => s.skipped
  | .array items ending => Node.skipItems items (ending.map (·.fault))
  | .object members ending => Node.skipMembers members (ending.map (·.fault))
  | .brokenWord f => some f
  | .absent f => some f

/-- The first fault in some items, or else the given one. -/
def Node.skipItems : List Node → Option Fault → Option Fault
  | [], last => last
  | n :: more, last => n.skip.or (Node.skipItems more last)

/-- The first fault in some members, or else the given one. -/
def Node.skipMembers : List (Reading String × Node) → Option Fault → Option Fault
  | [], last => last
  | (k, n) :: more, last => k.skipped.or (n.skip.or (Node.skipMembers more last))

end

/-- The fault in a scalar that is asked for. -/
def Reading.fault {α : Type} (r : Reading α) : Option Fault :=
  match r.wanted with
  | .ok _ => none
  | .error f => some f

mutual

/-- The first fault that is met by who asks for every part of a value. -/
def Node.heed : Node → Option Fault
  | .null => none
  | .bool _ => none
  | .number n => n.fault
  | .string s => s.fault
  | .array items ending => Node.heedItems items (ending.map (·.fault))
  | .object members ending => Node.heedMembers members (ending.map (·.fault))
  | .brokenWord f => some f
  | .absent f => some f

/-- The first fault in some items that are asked for, or else the given one. -/
def Node.heedItems : List Node → Option Fault → Option Fault
  | [], last => last
  | n :: more, last => n.heed.or (Node.heedItems more last)

/-- The first fault in some members that are asked for, or else the given one. -/
def Node.heedMembers : List (Reading String × Node) → Option Fault → Option Fault
  | [], last => last
  | (k, n) :: more, last => k.fault.or (n.heed.or (Node.heedMembers more last))

end

/-- Whether a node is a text. -/
def Node.isText : Node → Bool
  | .string _ => true
  | _ => false

end UserDirectory.Json
