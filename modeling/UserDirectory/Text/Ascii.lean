/-!
# Letters without regard to case

Only the letters `A` to `Z` have two cases here; every other character stands for itself.
-/

namespace UserDirectory.Text

/-- The small letter of a capital letter from `A` to `Z`, any other character unchanged. -/
def lower (c : Char) : Char :=
  if 'A' ≤ c ∧ c ≤ 'Z' then Char.ofNat (c.toNat + 32) else c

/-- A text with its capital letters made small. -/
def lowered (s : String) : String :=
  String.ofList (s.toList.map lower)

/-- Whether two texts differ at most in the case of their letters. -/
def sameLetters (a b : List Char) : Bool :=
  a.map lower == b.map lower

/-- Every text has the same letters as itself. -/
theorem sameLetters_refl (a : List Char) : sameLetters a a = true := by
  simp [sameLetters]

end UserDirectory.Text
