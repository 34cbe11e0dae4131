import UserDirectory.Proofs.Text.Decimal
import UserDirectory.Proofs.Time.Calendar
import UserDirectory.Time.InstantText
/-!
# Instants read back

An instant that is written is read as itself, in every year there is and in leap seconds too.

Main statement: `Instant.read_write`.
-/

namespace UserDirectory.Time

open UserDirectory.Text
open UserDirectory.Text.Decimal

/-! ## §1. Numbers. -/

/-- What reads digits goes on as long as it has places left. -/
theorem go_digit (width acc count d : Nat) (cs : List Char) (hd : d < 10) (h : count < width) :
    readNumber.go (width - count) acc (digitChar d :: cs) (decide (0 < count))
      = readNumber.go (width - (count + 1)) (acc * 10 + d) cs (decide (0 < count + 1)) := by
  obtain ⟨left, hleft⟩ : ∃ left, width - count = left + 1 := ⟨width - count - 1, by omega⟩
  have hnext : width - (count + 1) = left := by omega
  have hstarted : decide (0 < count + 1) = true := decide_eq_true (Nat.succ_pos count)
  rw [hleft, hnext, hstarted]
  rw [readNumber.go, digit?_digitChar hd]

/-- What reads digits stops where there is none. -/
theorem go_stop (width acc : Nat) (cs : List Char)
    (h : width = 0 ∨ ∀ c more, cs = c :: more → digit? c = none) :
    readNumber.go width acc cs true = some (acc, cs) := by
  cases width with
  | zero => rfl
  | succ left =>
    cases cs with
    | nil => rfl
    | cons c more =>
      obtain h | h := h
      · cases h
      · unfold readNumber.go
        rw [h c more rfl]
        rfl

/-- A number that is written with zeros in front is read, if there is room for it. -/
theorem readNumber_writePadded {w n width : Nat} {cs : List Char}
    (hlen : 0 < (writePadded w n).length) (hwidth : (writePadded w n).length ≤ width)
    (h : (writePadded w n).length = width ∨ ∀ c more, cs = c :: more → digit? c = none) :
    readNumber width (writePadded w n ++ cs) = some (n, cs) := by
  have hread := consume_writePadded width
    (f := fun acc count cs => readNumber.go (width - count) acc cs (decide (0 < count)))
    (fun acc count d cs hd hcount => go_digit width acc count d cs hd hcount) w n cs hwidth
  show readNumber.go (width - 0) 0 (writePadded w n ++ cs) (decide (0 < 0)) = _
  rw [hread, decide_eq_true hlen]
  refine go_stop _ _ _ ?_
  rcases h with h | h
  · exact .inl (by omega)
  · exact .inr h

/-- A number with as many digits as there are places is read. -/
theorem readNumber_filled {w n : Nat} {cs : List Char} (hw : 0 < w) (h : n < 10 ^ w) :
    readNumber w (writePadded w n ++ cs) = some (n, cs) := by
  have hlen := length_writePadded hw h
  exact readNumber_writePadded (by omega) (by omega) (.inl hlen)

/-- A number written with zeros in front begins with a digit. -/
theorem head_writePadded (w n : Nat) : ∃ c cs d, writePadded w n = c :: cs ∧ digit? c = some d := by
  unfold writePadded
  cases w - (write n).length with
  | zero => exact digit?_head_write n
  | succ k => exact ⟨'0', List.replicate k '0' ++ write n, 0, rfl, by decide⟩

/-- A digit is no blank. -/
theorem isBlank_of_digit? {c : Char} {d : Nat} (h : digit? c = some d) : isBlank c = false := by
  unfold digit? at h
  split at h
  · rename_i hdigit
    have hrange : 48 ≤ c.toNat ∧ c.toNat ≤ 57 := by
      unfold Char.isDigit at hdigit
      rw [Bool.and_eq_true, decide_eq_true_eq, decide_eq_true_eq] at hdigit
      exact ⟨UInt32.le_iff_toNat_le.1 hdigit.1, UInt32.le_iff_toNat_le.1 hdigit.2⟩
    -- no range of blanks meets that of the digits
    have key : ∀ n : Fin 58, 48 ≤ n.val →
        (blankRanges.any fun r => r.1 ≤ n.val && n.val ≤ r.2) = false := by decide
    exact key ⟨c.toNat, by omega⟩ hrange.1
  · cases h

/-- No blanks stand before a number. -/
theorem trimStart_writePadded (w n : Nat) (cs : List Char) :
    trimStart (writePadded w n ++ cs) = writePadded w n ++ cs := by
  obtain ⟨c, more, d, hw, hd⟩ := head_writePadded w n
  rw [hw]
  exact trimStart_cons_of_not_isBlank (isBlank_of_digit? hd)

/-- A number of two digits is read. -/
theorem readPair_writePair {n : Nat} (h : n < 100) (cs : List Char) :
    readPair (writePair n ++ cs) = some (n, cs) := by
  unfold readPair writePair
  rw [trimStart_writePadded]
  exact readNumber_filled (by decide) h

/-- A mark that is due is found. -/
theorem expect_cons {mark : Char} (h : isBlank mark = false) (cs : List Char) :
    expect mark (mark :: cs) = some cs := by
  unfold expect
  rw [trimStart_cons_of_not_isBlank h]
  exact if_pos rfl

/-! ## §2. Years. -/

/-- A number that is written with zeros in front has digits. -/
theorem length_writePadded_pos (w n : Nat) : 0 < (writePadded w n).length := by
  obtain ⟨c, cs, d, hw, _⟩ := head_writePadded w n
  rw [hw]
  exact Nat.succ_pos _

/-- A number of any length is read as far as its digits go. -/
theorem readNumber_writePadded_minus (w n : Nat) (cs : List Char) :
    readNumber (writePadded w n ++ '-' :: cs).length (writePadded w n ++ '-' :: cs)
      = some (n, '-' :: cs) := by
  refine readNumber_writePadded (length_writePadded_pos w n) ?_ (.inr ?_)
  · rw [List.length_append]
    omega
  · intro c more heq
    cases heq
    decide

/-- A year of four digits is read, if a minus sign follows. -/
theorem readYear_writePadded {n : Nat} (h : n < 10000) (cs : List Char) :
    readYear (writePadded 4 n ++ '-' :: cs) = some ((n : Int), '-' :: cs) := by
  obtain ⟨c, more, d, hw, hd⟩ := head_writePadded 4 n
  have hread : readNumber 4 (writePadded 4 n ++ '-' :: cs) = some (n, '-' :: cs) :=
    readNumber_filled (by decide) h
  have hminus : c ≠ '-' := by
    rintro rfl
    cases hd
  have hplus : c ≠ '+' := by
    rintro rfl
    cases hd
  unfold readYear
  rw [trimStart_writePadded]
  rw [hw] at hread ⊢
  -- a digit is no sign, so exactly four digits are read
  split
  · rename_i heq
    cases heq
    exact absurd rfl hminus
  · rename_i heq
    cases heq
    exact absurd rfl hplus
  · rw [hread]
    rfl

/-- A year is read, if a minus sign follows. -/
theorem readYear_writeYear (y : Int) (cs : List Char) :
    readYear (writeYear y ++ '-' :: cs) = some (y, '-' :: cs) := by
  unfold writeYear
  split
  · -- from 0 to 9999: four digits and no sign
    rename_i hy
    have hnat : (y.toNat : Int) = y := Int.toNat_of_nonneg hy.1
    rw [readYear_writePadded (by omega), hnat]
  · -- any other year has a sign, and as many digits as it needs
    rename_i hy
    by_cases hneg : y < 0
    · have hnat : -(y.natAbs : Int) = y := by omega
      rw [if_pos hneg]
      show Option.map _ (readNumber (writePadded 4 y.natAbs ++ '-' :: cs).length
        (writePadded 4 y.natAbs ++ '-' :: cs)) = _
      rw [readNumber_writePadded_minus]
      show some (-(y.natAbs : Int), '-' :: cs) = _
      rw [hnat]
    · have hnat : (y.natAbs : Int) = y := by omega
      rw [if_neg hneg]
      show Option.map _ (readNumber (writePadded 4 y.natAbs ++ '-' :: cs).length
        (writePadded 4 y.natAbs ++ '-' :: cs)) = _
      rw [readNumber_writePadded_minus]
      show some ((y.natAbs : Int), '-' :: cs) = _
      rw [hnat]

/-! ## §3. Fractions. -/

/-- The digits of a fraction are read, and each that is missing counts as zero. -/
theorem readFraction_digits {w n : Nat} (hw : 0 < w) (hw9 : w ≤ 9) (h : n < 10 ^ w) :
    readFraction ('.' :: (writePadded w n ++ ['Z'])) = some (n * 10 ^ (9 - w), ['Z']) := by
  have hlen := length_writePadded hw h
  have hread : readNumber 9 (writePadded w n ++ ['Z']) = some (n, ['Z']) := by
    refine readNumber_writePadded (by omega) (by omega) (.inr ?_)
    intro c more heq
    cases heq
    decide
  have hused : (writePadded w n ++ ['Z']).length - ['Z'].length = w := by
    rw [List.length_append]
    omega
  unfold readFraction
  simp only [hread, hused, bind, Option.bind]
  rfl

/-- A fraction is read. -/
theorem readFraction_writeFraction {nanos : Nat} (h : nanos < 1_000_000_000) :
    readFraction (writeFraction nanos ++ ['Z']) = some (nanos, ['Z']) := by
  unfold writeFraction
  split
  · -- without nanoseconds nothing is written
    rename_i hzero
    rw [hzero]
    rfl
  · split
    · rename_i hmillis
      show readFraction ('.' :: (writePadded 3 _ ++ ['Z'])) = _
      rw [readFraction_digits (by decide) (by decide) (by omega)]
      have : nanos / 1_000_000 * 10 ^ (9 - 3) = nanos := by omega
      rw [this]
    · split
      · rename_i hmicros
        show readFraction ('.' :: (writePadded 6 _ ++ ['Z'])) = _
        rw [readFraction_digits (by decide) (by decide) (by omega)]
        have : nanos / 1_000 * 10 ^ (9 - 6) = nanos := by omega
        rw [this]
      · show readFraction ('.' :: (writePadded 9 _ ++ ['Z'])) = _
        rw [readFraction_digits (by decide) (by decide) h]
        have : nanos * 10 ^ (9 - 9) = nanos := by omega
        rw [this]

/-! ## §4. Instants. -/

/-- An instant is the one with its seconds and nanoseconds. -/
theorem Instant.of?_self (t : Instant) : of? t.seconds t.nanos = some t := by
  unfold of?
  rw [dif_pos ⟨t.earliest_le, t.le_latest, t.nanos_lt, t.leap_at_59⟩]

/-- The second of the day of an instant, and whether it is in a leap second. -/
theorem Instant.exists_second (t : Instant) :
    ∃ second leap, (t.seconds % daySeconds).toNat = second ∧ t.nanos / 1_000_000_000 = leap
      ∧ t.seconds = t.seconds / daySeconds * daySeconds + (second : Nat) ∧ second < 86400
      ∧ leap ≤ 1 ∧ (leap = 1 → second % 60 = 59) := by
  have hnanos := t.nanos_lt
  refine ⟨_, _, rfl, rfl, ?_, ?_, by omega, fun hone => ?_⟩
  · unfold daySeconds
    omega
  · unfold daySeconds
    omega
  · have hleap := t.leap_at_59 (by omega)
    unfold daySeconds
    omega

/-- The text of an instant, part by part. -/
theorem Instant.write_eq (t : Instant) {second leap : Nat}
    (hsecond : (t.seconds % daySeconds).toNat = second) (hleap : t.nanos / 1_000_000_000 = leap) :
    t.write = writeYear t.date.year ++ '-' :: (writePair t.date.month ++ '-' ::
      (writePair t.date.day ++ 'T' :: (writePair (second / 3600) ++ ':' ::
      (writePair (second / 60 % 60) ++ ':' :: (writePair (second % 60 + leap)
      ++ (writeFraction (t.nanos % 1_000_000_000) ++ ['Z'])))))) := by
  unfold write
  simp only [hsecond, hleap, List.append_assoc, List.cons_append]
  rfl

/-- An instant that is written is read as itself. -/
theorem Instant.read_write (t : Instant) : read t.write = some t := by
  have hvalid : t.date.isValid = true := isValid_dateOfDay _
  obtain ⟨hmonth, hday⟩ := Date.small_of_isValid hvalid
  obtain ⟨hfirst, hlast⟩ := t.year_bounds
  have hnumber : dayOfDate t.date = t.seconds / daySeconds := dayOfDate_dateOfDay _
  obtain ⟨second, leap, hsecond, hone, hsplit, hlt, hleap, h59⟩ := t.exists_second
  have hmark (cs : List Char) : readMark ('T' :: cs) = some cs := by
    unfold readMark
    exact if_pos (.inl rfl)
  have hoffset : readOffset ['Z'] = some (0, []) := by decide
  rw [t.write_eq hsecond hone]
  unfold read
  simp only [readYear_writeYear, expect_cons (show isBlank '-' = false by decide),
    expect_cons (show isBlank ':' = false by decide), readPair_writePair hmonth,
    readPair_writePair hday, readPair_writePair (show second / 3600 < 100 by omega),
    readPair_writePair (show second / 60 % 60 < 100 by omega),
    readPair_writePair (show second % 60 + leap < 100 by omega),
    readFraction_writeFraction (Nat.mod_lt _ (by decide)), hmark, hoffset, bind, Option.bind]
  have hseconds : dayOfDate t.date * daySeconds + (((second / 3600 : Nat) : Int) * 3600
      + ((second / 60 % 60 : Nat) : Int) * 60 + ((min (second % 60 + leap) 59 : Nat) : Int)) - 0
      = t.seconds := by
    rw [hnumber]
    omega
  -- a leap second is the sixtieth of its minute, so it is written as such and not as the next
  have hnanos : (t.nanos % 1_000_000_000 + if second % 60 + leap = 60 then 1_000_000_000 else 0)
      = t.nanos := by
    split <;> omega
  have hall : trimStart [] = [] ∧ t.date.isValid = true ∧ -262143 ≤ t.date.year
      ∧ t.date.year ≤ 262142 ∧ second / 3600 < 24 ∧ second / 60 % 60 < 60
      ∧ second % 60 + leap ≤ 60 :=
    ⟨rfl, hvalid, hfirst, hlast, by omega, by omega, by omega⟩
  rw [if_pos hall]
  show of? (dayOfDate t.date * daySeconds + _ - 0) _ = _
  rw [hseconds, hnanos, of?_self]

end UserDirectory.Time
