import Mathlib.Algebra.Group.Nat.Defs
import UserDirectory.Text.Decimal
/-!
# Readers of decimal digits

Whoever reads digits one after another, and for each does the same with the number so far and with how
many there have been, reads a written number as that number.  A text is read as a number if it is one: some
digits, of which the first ones may be zeros.

Main statements:
  * `consume_write` and `consume_writePadded`, with and without zeros in front;
  * `readDigits_eq_ok_iff` and `read_eq_ok_iff`: which texts are read, and as what.
-/

namespace UserDirectory.Text.Decimal

/-- The text of a number is that of no other. -/
theorem text_inj {n m : Nat} (h : text n = text m) : n = m := by
  have hwrite : write n = write m := by simpa [text] using congrArg String.toList h
  have hn : read (n + m + 1) (write n) = .ok n := read_write (by omega)
  have hm : read (n + m + 1) (write m) = .ok m := read_write (by omega)
  rw [hwrite, hm] at hn
  cases hn
  rfl

/-- A number is written with few digits if it is small. -/
theorem length_write_le {n w : Nat} (hw : 0 < w) (h : n < 10 ^ w) : (write n).length ≤ w := by
  induction w generalizing n with
  | zero => omega
  | succ w ih =>
    rw [write]
    split
    · simp
    · rename_i hn
      cases w with
      | zero => omega
      | succ w =>
        have hdiv : n / 10 < 10 ^ (w + 1) := by
          rw [Nat.pow_succ] at h
          omega
        have := ih (Nat.succ_pos w) hdiv
        rw [List.length_append, List.length_singleton]
        omega

/-- A number that is written with zeros in front fills its places. -/
theorem length_writePadded {n w : Nat} (hw : 0 < w) (h : n < 10 ^ w) :
    (writePadded w n).length = w := by
  have := length_write_le hw h
  unfold writePadded
  rw [List.length_append, List.length_replicate]
  omega

section

variable {β : Type} (bound : Nat) {f : Nat → Nat → List Char → β}

/-- Who reads digits reads a written number. -/
theorem consume_write
    (hstep : ∀ acc count d cs, d < 10 → count < bound →
      f acc count (digitChar d :: cs) = f (acc * 10 + d) (count + 1) cs)
    (n acc count : Nat) (cs : List Char) (h : count + (write n).length ≤ bound) :
    f acc count (write n ++ cs)
      = f (acc * 10 ^ (write n).length + n) (count + (write n).length) cs := by
  induction n using Nat.strongRecOn generalizing acc count cs with
  | _ n ih =>
    by_cases hn : n < 10
    · have hw : write n = [digitChar n] := by
        rw [write, if_pos hn]
      rw [hw] at h ⊢
      show f acc count (digitChar n :: cs) = _
      rw [hstep acc count n cs hn h]
      rfl
    · have hw : write n = write (n / 10) ++ [digitChar (n % 10)] := by
        conv => lhs; rw [write]
        rw [if_neg hn]
      have hlen : (write n).length = (write (n / 10)).length + 1 := by
        rw [hw, List.length_append, List.length_singleton]
      have hmod : n % 10 < 10 := Nat.mod_lt _ (by omega)
      have hvalue : (acc * 10 ^ (write (n / 10)).length + n / 10) * 10 + n % 10
          = acc * 10 ^ ((write (n / 10)).length + 1) + n := by
        rw [Nat.pow_succ, ← Nat.mul_assoc]
        omega
      rw [hlen] at h ⊢
      rw [hw, List.append_assoc, ih (n / 10) (by omega) acc count _ (by omega)]
      show f _ _ (digitChar (n % 10) :: cs) = _
      rw [hstep _ _ _ _ hmod (by omega), hvalue, Nat.add_assoc]

/-- Who reads digits reads zeros. -/
theorem consume_zeros
    (hstep : ∀ acc count d cs, d < 10 → count < bound →
      f acc count (digitChar d :: cs) = f (acc * 10 + d) (count + 1) cs)
    (k count : Nat) (cs : List Char) (h : count + k ≤ bound) :
    f 0 count (List.replicate k '0' ++ cs) = f 0 (count + k) cs := by
  induction k generalizing count with
  | zero => rfl
  | succ k ih =>
    have hzero : '0' = digitChar 0 := by decide
    rw [List.replicate_succ, List.cons_append, hzero, hstep 0 count 0 _ (by omega) (by omega),
      ← hzero, ih (count + 1) (by omega)]
    congr 1
    omega

/-- Who reads digits reads a number that is written with zeros in front. -/
theorem consume_writePadded
    (hstep : ∀ acc count d cs, d < 10 → count < bound →
      f acc count (digitChar d :: cs) = f (acc * 10 + d) (count + 1) cs)
    (w n : Nat) (cs : List Char) (h : (writePadded w n).length ≤ bound) :
    f 0 0 (writePadded w n ++ cs) = f n (writePadded w n).length cs := by
  unfold writePadded at h ⊢
  rw [List.length_append, List.length_replicate] at h ⊢
  rw [List.append_assoc, consume_zeros bound hstep _ 0 _ (by omega),
    consume_write bound hstep n 0 _ cs (by omega), Nat.zero_mul, Nat.zero_add, Nat.zero_add]

end

/-! ## Which texts are read. -/

/-- Some characters are the digits of a number, the highest first; there is at least one. -/
structure IsNumeral (cs : List Char) (n : Nat) : Prop where
  ne_nil : cs ≠ []
  digits : ∀ c ∈ cs, c.isDigit = true
  value : Nat.ofDigitChars 10 cs 0 = n

variable {limit acc n : Nat} {cs : List Char}

/-- A digit more makes a number no smaller. -/
theorem le_ofDigitChars (acc : Nat) (cs : List Char) : acc ≤ Nat.ofDigitChars 10 cs acc := by
  induction cs generalizing acc with
  | nil => exact Nat.le_refl _
  | cons c cs ih =>
    rw [Nat.ofDigitChars_cons]
    exact Nat.le_trans (by omega) (ih _)

/-- Few digits make a small number. -/
theorem ofDigitChars_lt (hdigits : ∀ c ∈ cs, c.isDigit = true) :
    Nat.ofDigitChars 10 cs acc < (acc + 1) * 10 ^ cs.length := by
  induction cs generalizing acc with
  | nil =>
    rw [Nat.ofDigitChars_nil, List.length_nil, Nat.pow_zero]
    omega
  | cons c cs ih =>
    obtain ⟨hc, hrest⟩ := List.forall_mem_cons.1 hdigits
    have hdigit : c.toNat - '0'.toNat ≤ 9 := by
      have hle : c.toNat ≤ 57 := (Char.isDigit_iff_toNat.1 hc).2
      show c.toNat - 48 ≤ 9
      omega
    rw [Nat.ofDigitChars_cons, List.length_cons, Nat.pow_succ']
    calc Nat.ofDigitChars 10 cs (10 * acc + (c.toNat - '0'.toNat))
        < (10 * acc + (c.toNat - '0'.toNat) + 1) * 10 ^ cs.length := ih hrest
      _ ≤ ((acc + 1) * 10) * 10 ^ cs.length := Nat.mul_le_mul_right _ (by omega)
      _ = (acc + 1) * (10 * 10 ^ cs.length) := Nat.mul_assoc ..

theorem IsNumeral.lt (h : IsNumeral cs n) : n < 10 ^ cs.length := by
  have hlt : Nat.ofDigitChars 10 cs 0 < (0 + 1) * 10 ^ cs.length := ofDigitChars_lt h.digits
  rwa [h.value, Nat.zero_add, Nat.one_mul] at hlt

theorem readFrom_eq_ok_iff (hacc : acc < limit) :
    readFrom limit acc cs = .ok n
      ↔ (∀ c ∈ cs, c.isDigit = true) ∧ Nat.ofDigitChars 10 cs acc = n ∧ n < limit := by
  induction cs generalizing acc with
  | nil =>
    simp only [readFrom, Except.ok.injEq, List.not_mem_nil, false_imp_iff, implies_true, true_and,
      Nat.ofDigitChars_nil]
    exact ⟨fun h => ⟨h, h ▸ hacc⟩, And.left⟩
  | cons c cs ih =>
    have hvalue : 10 * acc + (c.toNat - '0'.toNat) = acc * 10 + (c.toNat - 48) := by
      rw [Nat.mul_comm]
      rfl
    rw [List.forall_mem_cons, Nat.ofDigitChars_cons, hvalue, readFrom, digit?]
    by_cases hdigit : c.isDigit = true
    · simp only [hdigit, if_true, true_and]
      split
      · rename_i hlt
        exact ih hlt
      · -- the number has reached the limit, and does not fall below it again
        rename_i hge
        refine iff_of_false (by rintro ⟨⟩) ?_
        rintro ⟨_, rfl, hlt⟩
        exact hge (Nat.lt_of_le_of_lt (le_ofDigitChars _ cs) hlt)
    · rw [if_neg hdigit]
      exact iff_of_false (by rintro ⟨⟩) fun h => hdigit h.1.1

/-- Digits are read as the number of which they are the digits, if it is below the limit. -/
theorem readDigits_eq_ok_iff (hlimit : 0 < limit) :
    readDigits limit cs = .ok n ↔ IsNumeral cs n ∧ n < limit := by
  cases cs with
  | nil => exact iff_of_false (by rintro ⟨⟩) fun h => h.1.ne_nil rfl
  | cons c cs =>
    rw [readDigits, readFrom_eq_ok_iff hlimit]
    · constructor
      · rintro ⟨hdigits, hvalue, hlt⟩
        exact ⟨⟨List.cons_ne_nil c cs, hdigits, hvalue⟩, hlt⟩
      · rintro ⟨h, hlt⟩
        exact ⟨h.digits, h.value, hlt⟩
    · rintro ⟨⟩

/-- A number is read with a plus sign before its digits or without one. -/
theorem read_eq_ok_iff (hlimit : 0 < limit) :
    read limit cs = .ok n
      ↔ ∃ digits, (cs = digits ∨ cs = '+' :: digits) ∧ IsNumeral digits n ∧ n < limit := by
  -- a sign is no digit
  have hsign : ∀ {rest : List Char} {m : Nat}, ¬ IsNumeral ('+' :: rest) m := fun h =>
    absurd (h.digits _ List.mem_cons_self) (by decide)
  have hminus : ∀ {m : Nat}, ¬ IsNumeral ['-'] m := fun h =>
    absurd (h.digits _ List.mem_cons_self) (by decide)
  unfold read
  split
  · refine iff_of_false (by rintro ⟨⟩) ?_
    rintro ⟨digits, rfl | hcs, h, _⟩
    · exact h.ne_nil rfl
    · cases hcs
  · refine iff_of_false (by rintro ⟨⟩) ?_
    rintro ⟨digits, rfl | hcs, h, _⟩
    · exact hsign h
    · cases hcs
      exact h.ne_nil rfl
  · refine iff_of_false (by rintro ⟨⟩) ?_
    rintro ⟨digits, rfl | hcs, h, _⟩
    · exact hminus h
    · cases hcs
  · rename_i rest _
    rw [readDigits_eq_ok_iff hlimit]
    constructor
    · exact fun h => ⟨rest, .inr rfl, h⟩
    · rintro ⟨digits, rfl | hcs, h⟩
      · exact absurd h.1 hsign
      · cases hcs
        exact h
  · rename_i hplus
    rw [readDigits_eq_ok_iff hlimit]
    constructor
    · exact fun h => ⟨_, .inl rfl, h⟩
    · rintro ⟨digits, rfl | rfl, h⟩
      · exact h
      · exact absurd rfl (hplus digits)

end UserDirectory.Text.Decimal
