/-!
# Bytes and characters

Characters are written as one to four bytes.  Reading never fails: a byte that belongs to no
character is kept as a stray, so that a format can decide where strays may stand.

Main statement: `read_write`, what is written reads back, without strays.
-/

namespace UserDirectory.Text.Utf8

/-- A character that was read, or `none` for a byte that belongs to no character. -/
abbrev Symbol := Option Char

/-- The bytes of a text. -/
def write (cs : List Char) : List UInt8 := cs.flatMap String.utf8EncodeChar

/-- The bytes of a text. -/
def bytes (s : String) : List UInt8 := write s.toList

/-- The low six bits of a byte that goes on with a character. -/
def continuation? (b : UInt8) : Option Nat :=
  if 0x80 ≤ b.toNat ∧ b.toNat < 0xC0 then some (b.toNat - 0x80) else none

/-- The character with a code point, if it lies from `low` on and is a character. -/
def charFrom? (low n : Nat) : Option Char :=
  if low ≤ n ∧ n.isValidChar then some (Char.ofNat n) else none

/-- The character at the start of some bytes and the number of its bytes. -/
def charAt? : List UInt8 → Option (Char × Nat)
  | [] => none
  | a :: rest =>
    let lead := a.toNat
    if lead < 0x80 then (charFrom? 0 lead).map (·, 1)
    else if 0xC0 ≤ lead ∧ lead < 0xE0 then
      (rest[0]?.bind continuation?).bind fun b =>
        (charFrom? 0x80 ((lead - 0xC0) * 0x40 + b)).map (·, 2)
    else if 0xE0 ≤ lead ∧ lead < 0xF0 then
      (rest[0]?.bind continuation?).bind fun b =>
        (rest[1]?.bind continuation?).bind fun c =>
          (charFrom? 0x800 (((lead - 0xE0) * 0x40 + b) * 0x40 + c)).map (·, 3)
    else if 0xF0 ≤ lead ∧ lead < 0xF8 then
      (rest[0]?.bind continuation?).bind fun b =>
        (rest[1]?.bind continuation?).bind fun c =>
          (rest[2]?.bind continuation?).bind fun d =>
            (charFrom? 0x10000 ((((lead - 0xF0) * 0x40 + b) * 0x40 + c) * 0x40 + d)).map (·, 4)
    else none

/-- The characters of some bytes, strays where there are none. -/
def read (bs : List UInt8) : List Symbol :=
  match bs with
  | [] => []
  | b :: rest =>
    match charAt? (b :: rest) with
    | some (c, n) => some c :: read (rest.drop (n - 1))
    | none => none :: read rest
termination_by bs.length
decreasing_by all_goals simp; try omega

/-- The characters of some symbols, if there is no stray among them. -/
def unstrayed? : List Symbol → Option (List Char)
  | [] => some []
  | none :: _ => none
  | some c :: rest => (unstrayed? rest).map (c :: ·)

/-- The text of some bytes, if they hold no stray. -/
def text? (bs : List UInt8) : Option (List Char) := unstrayed? (read bs)

/-! ## What is written reads back -/

theorem toNat_ofNat {n : Nat} (h : n < 256) : (UInt8.ofNat n).toNat = n := by
  simp only [UInt8.toNat_ofNat']
  omega

theorem continuation?_ofNat {n : Nat} (h : n < 64) :
    continuation? (UInt8.ofNat (n + 128)) = some n := by
  rw [continuation?, toNat_ofNat (by omega), if_pos (by omega), Nat.add_sub_cancel]

theorem charFrom?_toNat (c : Char) {low : Nat} (h : low ≤ c.toNat) :
    charFrom? low c.toNat = some c := by
  have hv : c.toNat.isValidChar := c.valid
  rw [charFrom?, if_pos ⟨h, hv⟩, Char.ofNat_toNat]

/-- The character that some bytes were written from stands at their start. -/
theorem charAt?_utf8EncodeChar (c : Char) (rest : List UInt8) :
    charAt? (String.utf8EncodeChar c ++ rest) = some (c, (String.utf8EncodeChar c).length) := by
  have hmax : c.toNat < 0x110000 := by
    have h := c.valid
    simp only [UInt32.isValidChar, Nat.isValidChar] at h
    simp only [Char.toNat]
    omega
  have hself : c.val.toNat = c.toNat := rfl
  simp only [String.utf8EncodeChar, hself]
  generalize hv : c.toNat = v at hmax
  split
  · rename_i h1
    simp only [List.cons_append, List.nil_append, charAt?, toNat_ofNat (show v < 256 by omega)]
    rw [if_pos (by omega), ← hv, charFrom?_toNat c (Nat.zero_le _)]
    rfl
  · split
    · rename_i h1 h2
      have hlead : v / 64 % 32 + 192 - 192 = v / 64 := by omega
      have hsum : v / 64 * 64 + v % 64 = v := by omega
      simp only [List.cons_append, List.nil_append, charAt?,
        toNat_ofNat (show v / 64 % 32 + 192 < 256 by omega)]
      rw [if_neg (by omega), if_pos (by omega)]
      simp only [List.getElem?_cons_zero, Option.bind_some,
        continuation?_ofNat (show v % 64 < 64 by omega), hlead, hsum]
      rw [← hv, charFrom?_toNat c (by omega)]
      rfl
    · split
      · rename_i h1 h2 h3
        have hlead : v / 4096 % 16 + 224 - 224 = v / 4096 := by omega
        have hsum : (v / 4096 * 64 + v / 64 % 64) * 64 + v % 64 = v := by omega
        simp only [List.cons_append, List.nil_append, charAt?,
          toNat_ofNat (show v / 4096 % 16 + 224 < 256 by omega)]
        rw [if_neg (by omega), if_neg (by omega), if_pos (by omega)]
        simp only [List.getElem?_cons_zero, List.getElem?_cons_succ, Option.bind_some,
          continuation?_ofNat (show v % 64 < 64 by omega),
          continuation?_ofNat (show v / 64 % 64 < 64 by omega), hlead, hsum]
        rw [← hv, charFrom?_toNat c (by omega)]
        rfl
      · rename_i h1 h2 h3
        have hlead : v / 262144 % 8 + 240 - 240 = v / 262144 := by omega
        have hsum : ((v / 262144 * 64 + v / 4096 % 64) * 64 + v / 64 % 64) * 64 + v % 64 = v := by
          omega
        simp only [List.cons_append, List.nil_append, charAt?,
          toNat_ofNat (show v / 262144 % 8 + 240 < 256 by omega)]
        rw [if_neg (by omega), if_neg (by omega), if_neg (by omega), if_pos (by omega)]
        simp only [List.getElem?_cons_zero, List.getElem?_cons_succ, Option.bind_some,
          continuation?_ofNat (show v % 64 < 64 by omega),
          continuation?_ofNat (show v / 64 % 64 < 64 by omega),
          continuation?_ofNat (show v / 4096 % 64 < 64 by omega), hlead, hsum]
        rw [← hv, charFrom?_toNat c (by omega)]
        rfl

theorem utf8EncodeChar_eq_cons (c : Char) :
    ∃ b bs, String.utf8EncodeChar c = b :: bs := by
  simp only [String.utf8EncodeChar]
  split
  · exact ⟨_, _, rfl⟩
  · split
    · exact ⟨_, _, rfl⟩
    · split <;> exact ⟨_, _, rfl⟩

theorem read_utf8EncodeChar_append (c : Char) (rest : List UInt8) :
    read (String.utf8EncodeChar c ++ rest) = some c :: read rest := by
  have h := charAt?_utf8EncodeChar c rest
  obtain ⟨b, bs, hb⟩ := utf8EncodeChar_eq_cons c
  rw [hb] at h ⊢
  simp only [List.cons_append] at h ⊢
  rw [read, h]
  simp

/-- What is written reads back, without strays. -/
theorem read_write (cs : List Char) : read (write cs) = cs.map some := by
  induction cs with
  | nil => simp [write, read]
  | cons c cs ih =>
    have hcons : write (c :: cs) = String.utf8EncodeChar c ++ write cs := by simp [write]
    rw [hcons, read_utf8EncodeChar_append, ih, List.map_cons]

theorem unstrayed?_map_some (cs : List Char) : unstrayed? (cs.map some) = some cs := by
  induction cs with
  | nil => rfl
  | cons c cs ih => simp [unstrayed?, ih]

end UserDirectory.Text.Utf8
