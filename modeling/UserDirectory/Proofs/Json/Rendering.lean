import UserDirectory.Json.Reader
import UserDirectory.Json.Value
import UserDirectory.Proofs.Text.Decimal
/-!
# Texts of a value

A value has many texts, because blanks may stand between its parts; all of them stand for one node.

Main statement: `renders_write`, the text that is written is one of the texts of a value.
-/

namespace UserDirectory.Json

open UserDirectory.Text
open UserDirectory.Text.Utf8 (Symbol)

/-! ## §1. The texts of a value. -/

/-- Some blanks. -/
def Gap (g : List Char) : Prop := ∀ c ∈ g, isGap (some c) = true

/-- A part of a text: a value, or what stands in an array or object from where its first or another
part may begin, with the bracket at its end. -/
inductive Part
  | value (v : Value)
  | items (first : Bool) (l : List Value)
  | members (first : Bool) (l : List (String × Value))

/-- What announces a part: a comma, unless it is the first. -/
def announced (first : Bool) : List Char := if first then [] else [',']

/-- The texts of a part. -/
inductive Renders : Part → List Char → Prop
  | null : Renders (.value .null) ['n', 'u', 'l', 'l']
  | false_ : Renders (.value (.bool false)) ['f', 'a', 'l', 's', 'e']
  | true_ : Renders (.value (.bool true)) ['t', 'r', 'u', 'e']
  | int (n : Int) : Renders (.value (.int n)) (Decimal.writeInt n)
  | string (s : String) : Renders (.value (.string s)) (quote s)
  | array {items : List Value} {cs : List Char} (h : Renders (.items true items) cs) :
      Renders (.value (.array items)) ('[' :: cs)
  | object {members : List (String × Value)} {cs : List Char}
      (h : Renders (.members true members) cs) : Renders (.value (.object members)) ('\x7b' :: cs)
  | items_nil {first : Bool} {g : List Char} (hg : Gap g) :
      Renders (.items first []) (g ++ [']'])
  | items_cons {first : Bool} {v : Value} {more : List Value} {g g₁ cs ds : List Char}
      (hg : Gap g) (hg₁ : Gap g₁) (hv : Renders (.value v) cs)
      (hmore : Renders (.items false more) ds) :
      Renders (.items first (v :: more)) (g ++ (announced first ++ (g₁ ++ (cs ++ ds))))
  | members_nil {first : Bool} {g : List Char} (hg : Gap g) :
      Renders (.members first []) (g ++ ['\x7d'])
  | members_cons {first : Bool} {k : String} {v : Value} {more : List (String × Value)}
      {g g₁ g₂ g₃ cs ds : List Char} (hg : Gap g) (hg₁ : Gap g₁) (hg₂ : Gap g₂)
      (hg₃ : Gap g₃) (hv : Renders (.value v) cs) (hmore : Renders (.members false more) ds) :
      Renders (.members first ((k, v) :: more))
        (g ++ (announced first ++ (g₁ ++ (quote k ++ (g₂ ++ ':' :: (g₃ ++ (cs ++ ds)))))))

/-- No blanks. -/
theorem Gap.nil : Gap [] := by
  intro c hc
  cases hc

mutual

/-- The text that is written is one of the texts of a value. -/
theorem renders_write : (v : Value) → Renders (.value v) v.write
  | .null => by
    unfold Value.write
    exact .null
  | .bool true => by
    unfold Value.write
    exact .true_
  | .bool false => by
    unfold Value.write
    exact .false_
  | .int n => by
    unfold Value.write
    exact .int n
  | .string s => by
    unfold Value.write
    exact .string s
  | .array items => by
    unfold Value.write
    have h := renders_writeItems true items
    rw [announced, if_pos rfl, ite_self] at h
    exact .array h
  | .object members => by
    unfold Value.write
    have h := renders_writeMembers true members
    rw [announced, if_pos rfl, ite_self] at h
    exact .object h

theorem renders_writeItems : (first : Bool) → (l : List Value) →
    Renders (.items first l) ((if l.isEmpty then [] else announced first) ++ Value.writeItems l)
  | first, [] => by
    unfold Value.writeItems
    exact .items_nil .nil
  | first, [v] => by
    unfold Value.writeItems
    exact .items_cons .nil .nil (renders_write v) (.items_nil .nil)
  | first, v :: w :: more => by
    unfold Value.writeItems
    exact .items_cons .nil .nil (renders_write v) (renders_writeItems false (w :: more))

theorem renders_writeMembers : (first : Bool) → (l : List (String × Value)) →
    Renders (.members first l) ((if l.isEmpty then [] else announced first) ++ Value.writeMembers l)
  | first, [] => by
    unfold Value.writeMembers
    exact .members_nil .nil
  | first, [(k, v)] => by
    unfold Value.writeMembers
    rw [List.append_assoc]
    exact .members_cons .nil .nil .nil .nil (renders_write v) (.members_nil .nil)
  | first, (k, v) :: m :: more => by
    unfold Value.writeMembers
    rw [List.append_assoc]
    exact .members_cons .nil .nil .nil .nil (renders_write v) (renders_writeMembers false (m :: more))

end

/-! ## §2. The node of a value. -/

mutual

/-- What a reader meets in a text of a value. -/
def Node.ofValue : Value → Node
  | .null => .null
  | .bool b => .bool b
  | .int n => (integerNode (n < 0) n.natAbs []).1
  | .string s => .string (.ok s)
  | .array items => .array (Node.ofItems items) none
  | .object members => .object (Node.ofMembers members) none

/-- What a reader meets in the texts of some items. -/
def Node.ofItems : List Value → List Node
  | [] => []
  | v :: more => Node.ofValue v :: Node.ofItems more

/-- What a reader meets in the texts of some members. -/
def Node.ofMembers : List (String × Value) → List (Reading String × Node)
  | [] => []
  | (k, v) :: more => (.ok k, Node.ofValue v) :: Node.ofMembers more

end

end UserDirectory.Json
