/-!
# Bytes as letters

Three bytes are written as four of 64 letters, and a rest of one or two bytes as two or three; there
is no padding.  Reading takes only what writing makes: the bits of the last letter that belong to no
byte must be zero.

Main statements: `decode_encode`, what is written reads back; `eq_encode_of_decode`, only what is
written is read.
-/

namespace UserDirectory.Text.Base64Url

/-- The letter for a number below 64. -/
def letter (n : Nat) : Char :=
  if n < 26 then Char.ofNat (65 + n)
  else if n < 52 then Char.ofNat (97 + (n - 26))
  else if n < 62 then Char.ofNat (48 + (n - 52))
  else if n = 62 then '-'
  else '_'

/-- The number that a letter stands for. -/
def value? (c : Char) : Option Nat :=
  let n := c.toNat
  if 65 ≤ n ∧ n ≤ 90 then some (n - 65)
  else if 97 ≤ n ∧ n ≤ 122 then some (n - 97 + 26)
  else if 48 ≤ n ∧ n ≤ 57 then some (n - 48 + 52)
  else if c = '-' then some 62
  else if c = '_' then some 63
  else none

/-- The letters of some bytes. -/
def encode : List UInt8 → List Char
  | [] => []
  | [a] => [letter (a.toNat / 4), letter (a.toNat % 4 * 16)]
  | [a, b] =>
    [letter (a.toNat / 4), letter (a.toNat % 4 * 16 + b.toNat / 16), letter (b.toNat % 16 * 4)]
  | a :: b :: c :: rest =>
    letter (a.toNat / 4) :: letter (a.toNat % 4 * 16 + b.toNat / 16)
      :: letter (b.toNat % 16 * 4 + c.toNat / 64) :: letter (c.toNat % 64) :: encode rest

/-- The byte with the high bits of one number and the low bits of another. -/
def join (high low : Nat) : UInt8 := UInt8.ofNat (high + low)

/-- The bytes of some letters, if they are written as `encode` writes. -/
def decode : List Char → Option (List UInt8)
  | [] => some []
  | [_] => none
  | [p, q] => do
    let p ← value? p
    let q ← value? q
    if q % 16 = 0 then some [join (p * 4) (q / 16)] else none
  | [p, q, r] => do
    let p ← value? p
    let q ← value? q
    let r ← value? r
    if r % 4 = 0 then some [join (p * 4) (q / 16), join (q % 16 * 16) (r / 4)] else none
  | p :: q :: r :: s :: rest => do
    let p ← value? p
    let q ← value? q
    let r ← value? r
    let s ← value? s
    let more ← decode rest
    some (join (p * 4) (q / 16) :: join (q % 16 * 16) (r / 4) :: join (r % 4 * 64) s :: more)

/-! ## Reading takes what writing makes -/

theorem value?_letter {n : Nat} (h : n < 64) : value? (letter n) = some n := by
  have key : ∀ n : Fin 64, value? (letter n.val) = some n.val := by decide
  exact key ⟨n, h⟩

theorem value?_lt {c : Char} {n : Nat} (h : value? c = some n) : n < 64 := by
  simp only [value?] at h
  repeat' split at h
  all_goals simp only [Option.some.injEq, reduceCtorEq] at h
  all_goals omega

theorem letter_of_value? {c : Char} {n : Nat} (h : value? c = some n) : letter n = c := by
  simp only [value?] at h
  have hc := Char.ofNat_toNat c
  repeat' split at h
  all_goals simp only [Option.some.injEq, reduceCtorEq] at h
  all_goals subst h
  · rw [letter, if_pos (by omega), show 65 + (c.toNat - 65) = c.toNat by omega, hc]
  · rw [letter, if_neg (by omega), if_pos (by omega),
      show 97 + (c.toNat - 97 + 26 - 26) = c.toNat by omega, hc]
  · rw [letter, if_neg (by omega), if_neg (by omega), if_pos (by omega),
      show 48 + (c.toNat - 48 + 52 - 52) = c.toNat by omega, hc]
  · rename_i h; rw [h]; rfl
  · rename_i h; rw [h]; rfl

theorem join_eq {a : UInt8} {high low : Nat} (h : high + low = a.toNat) : join high low = a := by
  rw [join, h, UInt8.ofNat_toNat]

/-- What is written reads back. -/
theorem decode_encode (bs : List UInt8) : decode (encode bs) = some bs := by
  fun_induction encode bs with
  | case1 => rfl
  | case2 a =>
    have ha := a.toNat_lt
    simp only [decode, value?_letter (show a.toNat / 4 < 64 by omega),
      value?_letter (show a.toNat % 4 * 16 < 64 by omega), bind, Option.bind]
    rw [if_pos (by omega), join_eq (a := a) (by omega)]
  | case3 a b =>
    have ha := a.toNat_lt
    have hb := b.toNat_lt
    simp only [decode, value?_letter (show a.toNat / 4 < 64 by omega),
      value?_letter (show a.toNat % 4 * 16 + b.toNat / 16 < 64 by omega),
      value?_letter (show b.toNat % 16 * 4 < 64 by omega), bind, Option.bind]
    rw [if_pos (by omega), join_eq (a := a) (by omega), join_eq (a := b) (by omega)]
  | case4 a b c rest ih =>
    have ha := a.toNat_lt
    have hb := b.toNat_lt
    have hc := c.toNat_lt
    simp only [decode, value?_letter (show a.toNat / 4 < 64 by omega),
      value?_letter (show a.toNat % 4 * 16 + b.toNat / 16 < 64 by omega),
      value?_letter (show b.toNat % 16 * 4 + c.toNat / 64 < 64 by omega),
      value?_letter (show c.toNat % 64 < 64 by omega), ih, bind, Option.bind]
    rw [join_eq (a := a) (by omega), join_eq (a := b) (by omega), join_eq (a := c) (by omega)]

theorem toNat_join {high low : Nat} (h : high + low < 256) : (join high low).toNat = high + low := by
  simp only [join, UInt8.toNat_ofNat']
  omega

/-- Only what is written is read. -/
theorem eq_encode_of_decode {cs : List Char} {bs : List UInt8} (h : decode cs = some bs) :
    cs = encode bs := by
  fun_induction decode cs generalizing bs with
  | case1 => simp only [Option.some.injEq] at h; subst h; rfl
  | case2 => simp at h
  | case3 p q =>
    simp only [bind, Option.bind_eq_some_iff] at h
    obtain ⟨p', hp, q', hq, h⟩ := h
    split at h
    · rename_i hz
      simp only [Option.some.injEq] at h
      subst h
      have hp64 := value?_lt hp
      have hq64 := value?_lt hq
      simp only [encode, toNat_join (show p' * 4 + q' / 16 < 256 by omega)]
      rw [show (p' * 4 + q' / 16) / 4 = p' by omega,
        show (p' * 4 + q' / 16) % 4 * 16 = q' by omega, letter_of_value? hp, letter_of_value? hq]
    · simp at h
  | case4 p q r =>
    simp only [bind, Option.bind_eq_some_iff] at h
    obtain ⟨p', hp, q', hq, r', hr, h⟩ := h
    split at h
    · rename_i hz
      simp only [Option.some.injEq] at h
      subst h
      have hp64 := value?_lt hp
      have hq64 := value?_lt hq
      have hr64 := value?_lt hr
      simp only [encode, toNat_join (show p' * 4 + q' / 16 < 256 by omega),
        toNat_join (show q' % 16 * 16 + r' / 4 < 256 by omega)]
      rw [show (p' * 4 + q' / 16) / 4 = p' by omega,
        show (p' * 4 + q' / 16) % 4 * 16 + (q' % 16 * 16 + r' / 4) / 16 = q' by omega,
        show (q' % 16 * 16 + r' / 4) % 16 * 4 = r' by omega,
        letter_of_value? hp, letter_of_value? hq, letter_of_value? hr]
    · simp at h
  | case5 p q r s rest ih =>
    simp only [bind, Option.bind_eq_some_iff] at h
    obtain ⟨p', hp, q', hq, r', hr, s', hs, more, hmore, h⟩ := h
    simp only [Option.some.injEq] at h
    subst h
    have hp64 := value?_lt hp
    have hq64 := value?_lt hq
    have hr64 := value?_lt hr
    have hs64 := value?_lt hs
    simp only [encode, toNat_join (show p' * 4 + q' / 16 < 256 by omega),
      toNat_join (show q' % 16 * 16 + r' / 4 < 256 by omega),
      toNat_join (show r' % 4 * 64 + s' < 256 by omega)]
    rw [show (p' * 4 + q' / 16) / 4 = p' by omega,
      show (p' * 4 + q' / 16) % 4 * 16 + (q' % 16 * 16 + r' / 4) / 16 = q' by omega,
      show (q' % 16 * 16 + r' / 4) % 16 * 4 + (r' % 4 * 64 + s') / 64 = r' by omega,
      show (r' % 4 * 64 + s') % 64 = s' by omega,
      letter_of_value? hp, letter_of_value? hq, letter_of_value? hr, letter_of_value? hs,
      ← ih hmore]

end UserDirectory.Text.Base64Url
