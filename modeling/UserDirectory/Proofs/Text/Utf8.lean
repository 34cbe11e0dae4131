import UserDirectory.Text.Utf8
/-!
# Characters and their bytes

What is read without strays has been written so: no character is read from other bytes than those that it
is written with.

Main statements:
  * `append_of_charAt?`: one character and its bytes;
  * `unstrayed?_read_eq_some_iff`: a whole text.
-/

namespace UserDirectory.Text.Utf8

variable {bs : List UInt8} {cs : List Char} {c : Char} {b : UInt8} {k low n : Nat}

theorem toNat_charOfNat (h : n.isValidChar) : (Char.ofNat n).toNat = n := by
  unfold Char.ofNat
  rw [dif_pos h]
  rfl

theorem charFrom?_eq_some (h : charFrom? low n = some c) : low ≤ n ∧ c.toNat = n := by
  unfold charFrom? at h
  split at h
  · rename_i hvalid
    simp only [Option.some.injEq] at h
    subst h
    exact ⟨hvalid.1, toNat_charOfNat hvalid.2⟩
  · cases h

/-- Where a byte goes on with a character, bytes begin with it. -/
theorem eq_cons_of_continuation? (h : bs[0]?.bind continuation? = some n) :
    ∃ b rest, bs = b :: rest ∧ b.toNat = n + 128 ∧ n < 64 := by
  cases bs with
  | nil => cases h
  | cons b rest =>
    change continuation? b = some n at h
    refine ⟨b, rest, rfl, ?_⟩
    unfold continuation? at h
    split at h
    · simp only [Option.some.injEq] at h
      omega
    · cases h

/-- A byte is that of its number. -/
theorem ofNat_eq (h : b.toNat = n) : UInt8.ofNat n = b := by
  rw [← h, UInt8.ofNat_toNat]

/-- A character is read only from the bytes that it is written with. -/
theorem append_of_charAt? (h : charAt? bs = some (c, k)) :
    ∃ rest, bs = String.utf8EncodeChar c ++ rest ∧ k = (String.utf8EncodeChar c).length := by
  cases bs with
  | nil => cases h
  | cons a rest =>
    have ha := a.toNat_lt
    simp only [charAt?] at h
    have hself : c.val.toNat = c.toNat := rfl
    simp only [String.utf8EncodeChar, hself]
    split at h
    · -- one byte
      obtain ⟨d, hchar, heq⟩ := Option.map_eq_some_iff.1 h
      cases heq
      obtain ⟨_, hc⟩ := charFrom?_eq_some hchar
      rw [if_pos (by omega), ofNat_eq hc.symm]
      exact ⟨rest, rfl, rfl⟩
    · split at h
      · -- two bytes
        obtain ⟨x, hx, hread⟩ := Option.bind_eq_some_iff.1 h
        obtain ⟨b, rest, rfl, hbx, hlt⟩ := eq_cons_of_continuation? hx
        obtain ⟨d, hchar, heq⟩ := Option.map_eq_some_iff.1 hread
        cases heq
        obtain ⟨hlow, hc⟩ := charFrom?_eq_some hchar
        rw [if_neg (by omega), if_pos (by omega), ofNat_eq (b := a) (by omega),
          ofNat_eq (b := b) (by omega)]
        exact ⟨rest, rfl, rfl⟩
      · split at h
        · -- three bytes
          obtain ⟨x, hx, hmore⟩ := Option.bind_eq_some_iff.1 h
          obtain ⟨b₁, rest, rfl, hbx, hltx⟩ := eq_cons_of_continuation? hx
          obtain ⟨y, hy, hread⟩ := Option.bind_eq_some_iff.1 hmore
          change rest[0]?.bind continuation? = some y at hy
          obtain ⟨b₂, rest, rfl, hby, hlty⟩ := eq_cons_of_continuation? hy
          obtain ⟨d, hchar, heq⟩ := Option.map_eq_some_iff.1 hread
          cases heq
          obtain ⟨hlow, hc⟩ := charFrom?_eq_some hchar
          rw [if_neg (by omega), if_neg (by omega), if_pos (by omega), ofNat_eq (b := a) (by omega),
            ofNat_eq (b := b₁) (by omega), ofNat_eq (b := b₂) (by omega)]
          exact ⟨rest, rfl, rfl⟩
        · split at h
          · -- four bytes
            obtain ⟨x, hx, hmore⟩ := Option.bind_eq_some_iff.1 h
            obtain ⟨b₁, rest, rfl, hbx, hltx⟩ := eq_cons_of_continuation? hx
            obtain ⟨y, hy, hlast⟩ := Option.bind_eq_some_iff.1 hmore
            change rest[0]?.bind continuation? = some y at hy
            obtain ⟨b₂, rest, rfl, hby, hlty⟩ := eq_cons_of_continuation? hy
            obtain ⟨z, hz, hread⟩ := Option.bind_eq_some_iff.1 hlast
            change rest[0]?.bind continuation? = some z at hz
            obtain ⟨b₃, rest, rfl, hbz, hltz⟩ := eq_cons_of_continuation? hz
            obtain ⟨d, hchar, heq⟩ := Option.map_eq_some_iff.1 hread
            cases heq
            obtain ⟨hlow, hc⟩ := charFrom?_eq_some hchar
            rw [if_neg (by omega), if_neg (by omega), if_neg (by omega), ofNat_eq (b := a) (by omega),
              ofNat_eq (b := b₁) (by omega), ofNat_eq (b := b₂) (by omega), ofNat_eq (b := b₃) (by omega)]
            exact ⟨rest, rfl, rfl⟩
          · cases h

/-- What is read without strays has been written so. -/
theorem eq_write_of_unstrayed? (h : unstrayed? (read bs) = some cs) : bs = write cs := by
  fun_induction read bs generalizing cs with
  | case1 =>
    cases h
    rfl
  | case2 b bs c k hchar ih =>
    obtain ⟨cs', hcs', rfl⟩ := Option.map_eq_some_iff.1 h
    obtain ⟨rest, hbs, rfl⟩ := append_of_charAt? hchar
    obtain ⟨a, as, hcons⟩ := utf8EncodeChar_eq_cons c
    -- the bytes after the character are those that are read next
    have hdrop : bs.drop ((String.utf8EncodeChar c).length - 1) = rest := by
      rw [hcons] at hbs ⊢
      cases hbs
      exact List.drop_left
    calc b :: bs = String.utf8EncodeChar c ++ rest := hbs
      _ = String.utf8EncodeChar c ++ write cs' := by rw [← ih hcs', hdrop]
      _ = write (c :: cs') := rfl
  | case3 b bs hchar ih => cases h

/-- The bytes of a text are read as this text, and no other bytes are. -/
theorem unstrayed?_read_eq_some_iff : unstrayed? (read bs) = some cs ↔ bs = write cs := by
  constructor
  · exact eq_write_of_unstrayed?
  · rintro rfl
    rw [read_write, unstrayed?_map_some]

end UserDirectory.Text.Utf8
