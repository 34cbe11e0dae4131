import UserDirectory.Json.Node
import UserDirectory.Json.Value
import UserDirectory.SortedMap
/-!
# Codecs: domain values as JSON

A codec writes the values of a type and reads them from a node.  Reading goes through a document
from the left and stops at the first fault.

A record is described once, by the list of its fields; writing, reading from an object and reading
from an array follow from the description.
-/

namespace UserDirectory.Json

/-- How the values of a type are written and read. -/
structure Codec (α : Type) where
  write : α → Value
  read : Node → Except Fault α

/-- The fault of a scalar where something else was asked for: its own, if it has one. -/
def Reading.refuse {α β : Type} (r : Reading α) : Except Fault β :=
  match r.wanted with
  | .ok _ => .error .mismatched
  | .error f => .error f

/-- Refuses a node that is not what was asked for. -/
def Node.refuse {α : Type} : Node → Except Fault α
  | .number n => n.refuse
  | .string s => s.refuse
  | .brokenWord f => .error f
  | .absent f => .error f
  | _ => .error .mismatched

/-- Stops at a fault. -/
def stopAt (f : Option Fault) : Except Fault Unit :=
  match f with
  | none => .ok ()
  | some f => .error f

/-- A value, or else what was asked for is not there. -/
def require {α : Type} (a : Option α) : Except Fault α :=
  match a with
  | some a => .ok a
  | none => .error .mismatched

namespace Codec

/-! ## §1. Scalars. -/

/-- Texts. -/
def string : Codec String where
  write := .string
  read
    | .string s => s.wanted
    | n => n.refuse

/-- Truth values. -/
def bool : Codec Bool where
  write := .bool
  read
    | .bool b => .ok b
    | n => n.refuse

/-- Whole numbers of a kind: how they are written, and which of them exist. -/
def whole {α : Type} (toInt : α → Int) (ofInt? : Int → Option α) : Codec α where
  write a := .int (toInt a)
  read
    | .number n => do
      match ← n.wanted with
      | .int i => require (ofInt? i)
      | .fraction => .error .mismatched
    | n => n.refuse

/-- Numbers from 0 to 2^32 - 1. -/
def uint32 : Codec UInt32 :=
  whole (fun n => n.toNat) fun i => if 0 ≤ i ∧ i < UInt32.size then some (UInt32.ofNat i.toNat) else none

/-- Numbers from -2^31 to 2^31 - 1. -/
def int32 : Codec Int32 :=
  whole Int32.toInt fun i =>
    if Int32.minValue.toInt ≤ i ∧ i ≤ Int32.maxValue.toInt then some (Int32.ofInt i) else none

/-- Numbers from -2^63 to 2^63 - 1. -/
def int64 : Codec Int64 :=
  whole Int64.toInt fun i =>
    if Int64.minValue.toInt ≤ i ∧ i ≤ Int64.maxValue.toInt then some (Int64.ofInt i) else none

/-- Numbers from 0 to `limit - 1`. -/
def below (limit : Nat) : Codec Nat :=
  whole (fun n => n) fun i => if 0 ≤ i ∧ i < limit then some i.toNat else none

/-- Values with a written form, as texts. -/
def text {α : Type} (show_ : α → String) (read? : String → Option α) : Codec α where
  write a := .string (show_ a)
  read n := do require (read? (← string.read n))

/-! ## §2. Options, lists and maps. -/

/-- A value or null. -/
def option {α : Type} (c : Codec α) : Codec (Option α) where
  write a := a.elim .null c.write
  read
    | .null => .ok none
    | n => (c.read n).map some

/-- Reads items one after another, up to the end of the array. -/
def readAll {α : Type} (read : Node → Except Fault α) :
    List Node → Option Break → Except Fault (List α)
  | [], ending => do stopAt (ending.map (·.fault)); pure []
  | n :: more, ending => do
    let a ← read n
    let rest ← readAll read more ending
    pure (a :: rest)

/-- Lists. -/
def list {α : Type} (c : Codec α) : Codec (List α) where
  write as := .array (as.map c.write)
  read
    | .array items ending => readAll c.read items ending
    | n => n.refuse

/-- Reads members one after another into a map; of two with one key the later counts. -/
def readEntries {α : Type} (read : Node → Except Fault α) :
    List (Reading String × Node) → Option Break → SortedMap String α →
      Except Fault (SortedMap String α)
  | [], ending, m => do stopAt (ending.map (·.fault)); pure m
  | (key, n) :: more, ending, m => do
    let k ← key.wanted
    let a ← read n
    readEntries read more ending (m.insert k a)

/-- Maps from texts. -/
def map {α : Type} (c : Codec α) : Codec (SortedMap String α) where
  write m := .object (m.entries.map fun e => (e.1, c.write e.2))
  read
    | .object members ending => readEntries c.read members ending .empty
    | n => n.refuse

/-! ## §3. Enumerations. -/

/-- The value that has a name. -/
def named? {α : Type} (name : α → String) (all : List α) (s : String) : Option α :=
  all.find? fun a => name a = s

/-- What must stand where a name has been given as the only key of an object: null. -/
def readUnit : Node → Except Fault Unit
  | .null => .ok ()
  | n => n.refuse

/-- Values with names: the name as a text, or as the only key of an object with null under it. -/
def enumeration {α : Type} (name : α → String) (all : List α) : Codec α where
  write a := .string (name a)
  read
    | .string s => do require (named? name all (← s.wanted))
    | .object [] none => .error .malformed
    | .object [] (some b) => .error b.asName
    | .object ((key, n) :: more) ending => do
      let a ← require (named? name all (← key.wanted))
      readUnit n
      if more.isEmpty then
        match ending with
        | none => pure a
        | some b => throw (if b.afterComma then .malformed else b.fault)
      else throw .malformed
    | .absent f => .error f
    | _ => .error .malformed

end Codec

/-! ## §4. Records. -/

/-- One field of a record. -/
structure Field (β : Type) where
  name : String
  codec : Codec β
  /-- the value where an object has no such member -/
  absent : Option β
  /-- the value where an array ends before it -/
  absentInArray : Option β

namespace Field

/-- A field that must be there. -/
def required {β : Type} (name : String) (c : Codec β) : Field β := ⟨name, c, none, none⟩

/-- A field that may be missing from an object, though not from an array. -/
def optional {β : Type} (name : String) (c : Codec β) : Field (Option β) :=
  ⟨name, c.option, some none, none⟩

/-- A field with a value of its own where it is missing. -/
def defaulted {β : Type} (name : String) (c : Codec β) (b : β) : Field β :=
  ⟨name, c, some b, some b⟩

end Field

/-- The fields of a record, in order, with the type of its contents. -/
inductive Fields : Type → Type 1
  | nil : Fields Unit
  | cons {β τ : Type} (f : Field β) (rest : Fields τ) : Fields (β × τ)

namespace Fields

/-- What has been found so far for each field. -/
def Slots : {τ : Type} → Fields τ → Type
  | _, .nil => Unit
  | _, .cons (β := β) _ rest => Option β × rest.Slots

/-- Nothing found yet. -/
def noSlots : {τ : Type} → (fs : Fields τ) → fs.Slots
  | _, .nil => ()
  | _, .cons _ rest => (none, rest.noSlots)

/-- Reads a member into the slot of its name, if a field has the name; a slot is filled once. -/
def put : {τ : Type} → (fs : Fields τ) → String → Node → fs.Slots → Option (Except Fault fs.Slots)
  | _, .nil, _, _, _ => none
  | _, .cons f rest, name, n, slots =>
    if f.name = name then
      some (if slots.1.isSome then .error .mismatched
            else (f.codec.read n).map fun b => (some b, slots.2))
    else (rest.put name n slots.2).map fun r => r.map fun more => (slots.1, more)

/-- The contents of a record, each missing field replaced by its own value if it has one. -/
def contents : {τ : Type} → (fs : Fields τ) → fs.Slots → Except Fault τ
  | _, .nil, _ => .ok ()
  | _, .cons f rest, slots => do
    let b ← require (slots.1.or f.absent)
    let t ← rest.contents slots.2
    pure (b, t)

/-- Reads members one after another.  A member that is no field is passed over, or refused where
the record is `strict`. -/
def readMembers {τ : Type} (fs : Fields τ) (strict : Bool) :
    List (Reading String × Node) → Option Break → fs.Slots → Except Fault fs.Slots
  | [], ending, slots => do stopAt (ending.map (·.fault)); pure slots
  | (key, n) :: more, ending, slots => do
    let name ← key.wanted
    match fs.put name n slots with
    | some r => fs.readMembers strict more ending (← r)
    | none =>
      if strict then throw .mismatched
      else do
        stopAt n.skip
        fs.readMembers strict more ending slots

/-- Reads the fields in order from the items of an array; gives the items that are left as well. -/
def readItems : {τ : Type} → (fs : Fields τ) → List Node → Option Break →
    Except Fault (τ × List Node)
  | _, .nil, items, _ => .ok ((), items)
  | _, .cons f rest, [], ending => do
    stopAt (ending.map (·.fault))
    let b ← require f.absentInArray
    let (t, left) ← rest.readItems [] ending
    pure ((b, t), left)
  | _, .cons f rest, n :: more, ending => do
    let b ← f.codec.read n
    let (t, left) ← rest.readItems more ending
    pure ((b, t), left)

/-- The members that a record is written as. -/
def writeMembers : {τ : Type} → Fields τ → τ → List (String × Value)
  | _, .nil, _ => []
  | _, .cons f rest, (b, t) => (f.name, f.codec.write b) :: rest.writeMembers t

end Fields

/-- Refuses what is left of an array when all fields have been read. -/
def endOfItems (left : List Node) (ending : Option Break) : Except Fault Unit :=
  match left, ending with
  | [], none => .ok ()
  | [], some b => .error (if b.afterComma then .malformed else b.fault)
  | _ :: _, _ => .error .malformed

/-- The codec of a record: its fields, and how a value is taken apart and put together. -/
def Codec.record {α τ : Type} (fields : Fields τ) (strict : Bool) (contents : α → τ)
    (make? : τ → Option α) : Codec α where
  write a := .object (fields.writeMembers (contents a))
  read
    | .object members ending => do
      let slots ← fields.readMembers strict members ending fields.noSlots
      require (make? (← fields.contents slots))
    | .array items ending => do
      let (t, left) ← fields.readItems items ending
      let a ← require (make? t)
      endOfItems left ending
      pure a
    | n => n.refuse

end UserDirectory.Json
