import UserDirectory.Proofs.Json.Rendering
/-!
# The grammar of the format

What a text of the format is, apart from who reads it: words, numbers and texts in quotes, and arrays
and objects that are made up of such.  Numbers may have a fraction and an exponent, and any character
of a text may be written by its number.

A text is kept with the node it stands for, and that of a scalar is what is read of it where it stands
alone.  The texts of a value are some of the texts of its node.
-/

namespace UserDirectory.Json

open UserDirectory.Text
open UserDirectory.Text.Utf8 (Symbol)

/-! ## §1. Texts in quotes. -/

/-- What may stand between quotes: characters as they are, or escaped. -/
inductive Letters : List Char → Prop
  | nil : Letters []
  | plain {c : Char} {cs : List Char} (hlow : ¬ c.toNat < 0x20) (hquote : c ≠ '"') (hslash : c ≠ '\\')
      (h : Letters cs) : Letters (c :: cs)
  | escaped {c : Char} {cs : List Char} (hc : c ∈ ['"', '\\', '/', 'b', 'f', 'n', 'r', 't'])
      (h : Letters cs) : Letters ('\\' :: c :: cs)
  | numbered {a b c d : Char} {cs : List Char} (ha : (hexValue? (some a)).isSome)
      (hb : (hexValue? (some b)).isSome) (hc : (hexValue? (some c)).isSome)
      (hd : (hexValue? (some d)).isSome) (h : Letters cs) :
      Letters ('\\' :: 'u' :: a :: b :: c :: d :: cs)

/-- How the letters between two quotes read. -/
def lettersReading (cs : List Char) : Reading String :=
  (readText (.ok []) false false (cs.map some ++ [some '"'])).1

/-! ## §2. Numbers. -/

/-- One digit at least, and nothing else. -/
def Digits (ds : List Char) : Prop := ds ≠ [] ∧ ∀ c ∈ ds, c.isDigit = true

/-- A point and digits, or nothing. -/
inductive Fraction : List Char → Prop
  | nil : Fraction []
  | digits {ds : List Char} (h : Digits ds) : Fraction ('.' :: ds)

/-- The mark of an exponent, a sign if there is one, and digits; or nothing. -/
inductive Exponent : List Char → Prop
  | nil : Exponent []
  | digits {mark : Char} {sign ds : List Char} (hmark : mark ∈ ['e', 'E'])
      (hsign : sign ∈ [[], ['+'], ['-']]) (h : Digits ds) : Exponent (mark :: (sign ++ ds))

/-- A number: no zero stands before another digit. -/
inductive Numeral : List Char → Prop
  | mk {sign whole fraction exponent : List Char} (hsign : sign ∈ [[], ['-']]) (hwhole : Digits whole)
      (hzero : whole.head? = some '0' → whole.length = 1) (hfraction : Fraction fraction)
      (hexponent : Exponent exponent) : Numeral (sign ++ (whole ++ (fraction ++ exponent)))

/-! ## §3. Values. -/

/-- A value that has no parts. -/
inductive Scalar : List Char → Prop
  | null : Scalar ['n', 'u', 'l', 'l']
  | true_ : Scalar ['t', 'r', 'u', 'e']
  | false_ : Scalar ['f', 'a', 'l', 's', 'e']
  | number {cs : List Char} (h : Numeral cs) : Scalar cs
  | text {cs : List Char} (h : Letters cs) : Scalar ('"' :: (cs ++ ['"']))

/-- What is read of a text that stands alone. -/
def Node.alone (cs : List Char) : Node := (readNode 1 (cs.map some)).1

/-- A part of a text, as nodes: a value, or what stands in an array or object from where its first or
another part may begin. -/
inductive NodePart
  | value (n : Node)
  | items (first : Bool) (l : List Node)
  | members (first : Bool) (l : List (Reading String × Node))

/-- The texts that stand for a part. -/
inductive Spells : NodePart → List Char → Prop
  | scalar {cs : List Char} (h : Scalar cs) : Spells (.value (.alone cs)) cs
  | array {items : List Node} {cs : List Char} (h : Spells (.items true items) cs) :
      Spells (.value (.array items none)) ('[' :: cs)
  | object {members : List (Reading String × Node)} {cs : List Char}
      (h : Spells (.members true members) cs) :
      Spells (.value (.object members none)) ('\x7b' :: cs)
  | items_nil {first : Bool} {g : List Char} (hg : Gap g) : Spells (.items first []) (g ++ [']'])
  | items_cons {first : Bool} {n : Node} {more : List Node} {g g₁ cs ds : List Char}
      (hg : Gap g) (hg₁ : Gap g₁) (hn : Spells (.value n) cs)
      (hmore : Spells (.items false more) ds) :
      Spells (.items first (n :: more)) (g ++ (announced first ++ (g₁ ++ (cs ++ ds))))
  | members_nil {first : Bool} {g : List Char} (hg : Gap g) :
      Spells (.members first []) (g ++ ['\x7d'])
  | members_cons {first : Bool} {ks : List Char} {n : Node} {more : List (Reading String × Node)}
      {g g₁ g₂ g₃ cs ds : List Char} (hg : Gap g) (hg₁ : Gap g₁) (hks : Letters ks) (hg₂ : Gap g₂)
      (hg₃ : Gap g₃) (hn : Spells (.value n) cs) (hmore : Spells (.members false more) ds) :
      Spells (.members first ((lettersReading ks, n) :: more))
        (g ++ (announced first
          ++ (g₁ ++ ('"' :: (ks ++ '"' :: (g₂ ++ ':' :: (g₃ ++ (cs ++ ds))))))))

end UserDirectory.Json
