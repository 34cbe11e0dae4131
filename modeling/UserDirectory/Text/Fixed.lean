import UserDirectory.Text.Decimal
/-!
# Fractions with a fixed number of places

A double is a whole number times a power of two, so its places after the point can be counted
exactly; what lies half-way between two last digits goes to the even one.

Main statement: `roundDiv_near`, rounding goes wrong by half at most.
-/

namespace UserDirectory.Text.Fixed

/-- A quotient rounded to the nearest whole number, and half-way to the even one. -/
def roundDiv (n d : Nat) : Nat :=
  let q := n / d
  let r := n % d
  if 2 * r < d then q
  else if d < 2 * r then q + 1
  else if q % 2 = 0 then q else q + 1

/-- The nearest whole number of parts, of which `scale` make one, to a double that is not negative. -/
def partsOf (scale : Nat) (x : Float) : Nat :=
  let bits := x.toBits.toNat % Nat.pow 2 63
  let exponent := bits / Nat.pow 2 52
  let fraction := bits % Nat.pow 2 52
  let mantissa := if exponent = 0 then fraction else fraction + Nat.pow 2 52
  let shift := max exponent 1
  if 1075 ≤ shift then mantissa * scale * Nat.pow 2 (shift - 1075)
  else roundDiv (mantissa * scale) (Nat.pow 2 (1075 - shift))

/-- A double that is not negative, with a number of places after the point. -/
def write (places : Nat) (x : Float) : List Char :=
  let scale := Nat.pow 10 places
  let n := partsOf scale x
  Decimal.write (n / scale) ++ '.' :: Decimal.writePadded places (n % scale)

/-- Rounding goes wrong by half at most. -/
theorem roundDiv_near {n d : Nat} (hd : 0 < d) :
    2 * n ≤ 2 * (d * roundDiv n d) + d ∧ 2 * (d * roundDiv n d) ≤ 2 * n + d := by
  have h := Nat.div_add_mod n d
  have hexp : d * (n / d + 1) = d * (n / d) + d := by rw [Nat.mul_add, Nat.mul_one]
  simp only [roundDiv]
  split
  · omega
  · split
    · rw [hexp]
      have := Nat.mod_lt n hd
      omega
    · split
      · omega
      · rw [hexp]; omega

end UserDirectory.Text.Fixed
