import UserDirectory.Proofs.Json.Grammar
/-!
# Reading scalars

What is read of a scalar does not depend on what follows it, as long as that does not go on with a
number; and whoever passes over it meets no fault.

Main statements:
  * `Scalar.isRead`: a scalar is read as where it stands alone, and can be passed over;
  * `readText_quote`, `readNumber_write`: what is written for a text or a number is read.
-/

namespace UserDirectory.Json

open UserDirectory.Text
open UserDirectory.Text.Utf8 (Symbol)

/-! ## §1. Texts in quotes. -/

/-- Four digits to the base sixteen are read. -/
theorem hexFour_digits {a b c d : Char} (ha : (hexValue? (some a)).isSome)
    (hb : (hexValue? (some b)).isSome) (hc : (hexValue? (some c)).isSome)
    (hd : (hexValue? (some d)).isSome) :
    ∃ n, ∀ rest, hexFour (some a :: some b :: some c :: some d :: rest) = .ok n := by
  obtain ⟨a', ha⟩ := Option.isSome_iff_exists.1 ha
  obtain ⟨b', hb⟩ := Option.isSome_iff_exists.1 hb
  obtain ⟨c', hc⟩ := Option.isSome_iff_exists.1 hc
  obtain ⟨d', hd⟩ := Option.isSome_iff_exists.1 hd
  refine ⟨((a' * 16 + b') * 16 + c') * 16 + d', fun rest => ?_⟩
  unfold hexFour
  simp only [ha, hb, hc, hd]

/-- The letter after a backslash stands for a character, and announces no number. -/
theorem simpleEscape?_of_mem {c : Char} (h : c ∈ ['"', '\\', '/', 'b', 'f', 'n', 'r', 't']) :
    c ≠ 'u' ∧ ∃ d, simpleEscape? c = some d := by
  simp only [List.mem_cons, List.not_mem_nil, or_false] at h
  rcases h with rfl | rfl | rfl | rfl | rfl | rfl | rfl | rfl
  all_goals exact ⟨by decide, _, rfl⟩

/-- What is no escape is no second half of a pair. -/
theorem trailingHalf_plain {c : Char} (h : c ≠ '\\') (more : List Symbol) :
    trailingHalf (some c :: more) = .error .malformed := by
  unfold trailingHalf
  split
  all_goals try (rename_i heq; cases heq)
  all_goals first | exact absurd rfl h | rfl

/-- An escape with one letter is no second half of a pair. -/
theorem trailingHalf_escaped {c : Char} (h : c ≠ 'u') (more : List Symbol) :
    trailingHalf (some '\\' :: some c :: more) = .error .malformed := by
  unfold trailingHalf
  split
  all_goals try (rename_i heq; cases heq)
  all_goals first | exact absurd rfl h | rfl

/-- Whether the second half of a pair follows is settled before the closing quote. -/
theorem trailingHalf_letters {cs : List Char} (h : Letters cs) :
    ∃ r, ∀ rest, trailingHalf (cs.map some ++ some '"' :: rest) = r := by
  cases h with
  | nil => exact ⟨_, fun rest => trailingHalf_plain (by decide) rest⟩
  | plain hlow hquote hslash h => exact ⟨_, fun rest => trailingHalf_plain hslash _⟩
  | escaped hc h => exact ⟨_, fun rest => trailingHalf_escaped (simpleEscape?_of_mem hc).1 _⟩
  | @numbered a b c d cs ha hb hc hd h =>
    obtain ⟨n, hn⟩ := hexFour_digits ha hb hc hd
    refine ⟨if 0xDC00 ≤ n ∧ n ≤ 0xDFFF then .ok n else .error .malformed, fun rest => ?_⟩
    show (do
      let n ← hexFour (some a :: some b :: some c :: some d :: (cs.map some ++ some '"' :: rest))
      if 0xDC00 ≤ n ∧ n ≤ 0xDFFF then .ok n else .error .malformed) = _
    rw [hn]
    rfl

/-- The character of an escape is settled before the closing quote. -/
theorem unicodeEscape_letters {cs : List Char} (h : Letters cs) (n : Nat) :
    ∃ r, ∀ rest, unicodeEscape n (cs.map some ++ some '"' :: rest) = r := by
  obtain ⟨half, hhalf⟩ := trailingHalf_letters h
  unfold unicodeEscape
  simp only [hhalf]
  exact ⟨_, fun rest => rfl⟩

/-- Letters are read up to the closing quote, and can be passed over. -/
theorem Letters.read_eq {cs : List Char} (h : Letters cs) (s : Scanned) (stray pending : Bool) :
    ∃ text : Reading String, text.skipped = none ∧ ∀ rest,
      readText s stray pending (cs.map some ++ some '"' :: rest) = (text, some rest) := by
  induction h generalizing s pending with
  | nil => exact ⟨_, rfl, fun rest => rfl⟩
  | @plain c cs hlow hquote hslash h ih =>
    obtain ⟨text, hskip, hread⟩ := ih (s.push c) false
    refine ⟨text, hskip, fun rest => ?_⟩
    show readText s stray pending (some c :: (cs.map some ++ some '"' :: rest)) = _
    rw [readText]
    · rw [if_neg hlow, hread]
    · exact hquote
    · exact fun _ => hslash
    · exact fun _ _ => hslash
    · exact fun _ _ _ => hslash
    · exact fun _ _ => hslash
  | @escaped c cs hc h ih =>
    obtain ⟨hnumber, d, hd⟩ := simpleEscape?_of_mem hc
    obtain ⟨text, hskip, hread⟩ := ih (s.push d) false
    refine ⟨text, hskip, fun rest => ?_⟩
    show readText s stray pending (some '\\' :: some c :: (cs.map some ++ some '"' :: rest)) = _
    rw [readText]
    · rw [hd]
      exact hread rest
    · exact hnumber
  | @numbered a b c d cs ha hb hc hd h ih =>
    obtain ⟨n, hn⟩ := hexFour_digits ha hb hc hd
    obtain ⟨r, hr⟩ := unicodeEscape_letters h n
    have hstep (rest : List Symbol) :
        readText s stray pending (('\\' :: 'u' :: a :: b :: c :: d :: cs).map some ++ some '"' :: rest)
          = if pending then readText s stray false (cs.map some ++ some '"' :: rest)
            else
              match r with
              | .ok e => readText (s.push e.1) stray e.2 (cs.map some ++ some '"' :: rest)
              | .error f => readText (s.note f) stray false (cs.map some ++ some '"' :: rest) := by
      show readText s stray pending (some '\\' :: some 'u' :: some a :: some b :: some c :: some d
        :: (cs.map some ++ some '"' :: rest)) = _
      rw [readText, hn]
      simp only
      rw [hr rest]
      cases r <;> rfl
    -- a second half that has been read already adds nothing
    cases pending with
    | true =>
      obtain ⟨text, hskip, hread⟩ := ih s false
      exact ⟨text, hskip, fun rest => (hstep rest).trans (hread rest)⟩
    | false =>
      cases r with
      | ok e =>
        obtain ⟨text, hskip, hread⟩ := ih (s.push e.1) e.2
        exact ⟨text, hskip, fun rest => (hstep rest).trans (hread rest)⟩
      | error f =>
        obtain ⟨text, hskip, hread⟩ := ih (s.note f) false
        exact ⟨text, hskip, fun rest => (hstep rest).trans (hread rest)⟩

/-- Letters are read as where they stand alone. -/
theorem readText_letters {cs : List Char} (h : Letters cs) (rest : List Symbol) :
    readText (.ok []) false false (cs.map some ++ some '"' :: rest)
      = (lettersReading cs, some rest) := by
  obtain ⟨text, _, hread⟩ := h.read_eq (.ok []) false false
  unfold lettersReading
  rw [hread, hread]

/-- Letters can be passed over. -/
theorem skipped_lettersReading {cs : List Char} (h : Letters cs) :
    (lettersReading cs).skipped = none := by
  obtain ⟨text, hskip, hread⟩ := h.read_eq (.ok []) false false
  unfold lettersReading
  rw [hread]
  exact hskip

/-! ## §2. Texts that are written. -/

/-- A digit to the base sixteen is read. -/
theorem hexValue?_hexDigit {n : Nat} (h : n < 16) : hexValue? (some (hexDigit n)) = some n := by
  have key : ∀ n : Fin 16, hexValue? (some (hexDigit n.val)) = some n.val := by decide
  exact key ⟨n, h⟩

/-- A character that is written by its number is read. -/
theorem readText_control {c : Char} (h : c.toNat < 0x20) (acc : List Char) (tail : List Symbol) :
    readText (.ok acc) false false (some '\\' :: some 'u' :: some '0' :: some '0'
        :: some (hexDigit (c.toNat / 16)) :: some (hexDigit (c.toNat % 16)) :: tail)
      = readText (.ok (c :: acc)) false false tail := by
  have hzero : hexValue? (some '0') = some 0 := by decide
  have hfour : hexFour (some '0' :: some '0' :: some (hexDigit (c.toNat / 16))
      :: some (hexDigit (c.toNat % 16)) :: tail) = .ok c.toNat := by
    unfold hexFour
    simp only [hzero, hexValue?_hexDigit (show c.toNat / 16 < 16 by omega),
      hexValue?_hexDigit (show c.toNat % 16 < 16 by omega)]
    congr 1
    omega
  have hescape : unicodeEscape c.toNat tail = .ok (c, false) := by
    unfold unicodeEscape
    rw [if_neg (by omega), if_neg (by omega), Char.ofNat_toNat]
  rw [readText]
  simp only [hfour, hescape]
  rfl

/-- One character of a text in quotes is read. -/
theorem readText_escape (c : Char) (acc : List Char) (tail : List Symbol) :
    readText (.ok acc) false false ((escape c).map some ++ tail)
      = readText (.ok (c :: acc)) false false tail := by
  unfold escape
  split
  · rename_i h
    rw [h]
    rfl
  · rename_i hquote
    split
    · rename_i h
      rw [h]
      rfl
    · rename_i hslash
      repeat' split
      all_goals try (rename_i h; rw [h]; rfl)
      · rename_i h
        exact readText_control h acc tail
      · rename_i h
        show readText (.ok acc) false false (some c :: tail) = _
        rw [readText]
        · rw [if_neg h]
          rfl
        · exact hquote
        · exact fun _ => hslash
        · exact fun _ _ => hslash
        · exact fun _ _ _ => hslash
        · exact fun _ _ => hslash

/-- What is written for a text reads as that text. -/
theorem lettersReading_escape (s : String) : lettersReading (s.toList.flatMap escape) = .ok s := by
  have key : ∀ cs acc : List Char,
      readText (.ok acc) false false ((cs.flatMap escape).map some ++ [some '"'])
        = (.ok (String.ofList (acc.reverse ++ cs)), some []) := by
    intro cs
    induction cs with
    | nil =>
      intro acc
      rw [List.append_nil]
      rfl
    | cons c cs ih =>
      intro acc
      rw [List.flatMap_cons, List.map_append, List.append_assoc, readText_escape, ih,
        List.reverse_cons, List.append_assoc]
      rfl
  unfold lettersReading
  rw [key s.toList []]
  show Reading.ok (String.ofList s.toList) = _
  rw [String.ofList_toList]

/-- What is written for a character is some letters. -/
theorem letters_escape (c : Char) {cs : List Char} (h : Letters cs) : Letters (escape c ++ cs) := by
  unfold escape
  split
  · exact .escaped (by decide) h
  · rename_i hquote
    split
    · exact .escaped (by decide) h
    · rename_i hslash
      repeat' split
      all_goals try exact .escaped (by decide) h
      · rename_i hlow
        have hdigit {n : Nat} (hn : n < 16) : (hexValue? (some (hexDigit n))).isSome := by
          rw [hexValue?_hexDigit hn]
          rfl
        exact .numbered (by decide) (by decide) (hdigit (by omega)) (hdigit (by omega)) h
      · rename_i hlow
        exact .plain hlow hquote hslash h

theorem letters_flatMap_escape (cs : List Char) : Letters (cs.flatMap escape) := by
  induction cs with
  | nil => exact .nil
  | cons c cs ih =>
    rw [List.flatMap_cons]
    exact letters_escape c ih

/-! ## §3. Numbers. -/

/-- Nothing that the digits of a number would go on with. -/
def EndsDigits (rest : List Symbol) : Prop :=
  ∀ c more, rest = some c :: more → Decimal.digit? c = none

/-- Nothing that a number would go on with. -/
def Stops (rest : List Symbol) : Prop :=
  ∀ s more, rest = s :: more →
    (∀ c, s = some c → Decimal.digit? c = none) ∧ s ≠ some '.' ∧ isExponentMark s = false

theorem Stops.endsDigits {rest : List Symbol} (h : Stops rest) : EndsDigits rest :=
  fun c more heq => (h (some c) more heq).1 c rfl

theorem endsDigits_cons {c : Char} (h : Decimal.digit? c = none) (rest : List Symbol) :
    EndsDigits (some c :: rest) := by
  intro d more heq
  cases heq
  exact h

theorem takeDigits_of_ends {rest : List Symbol} (h : EndsDigits rest) (acc count : Nat) :
    takeDigits acc count rest = (acc, count, rest) := by
  cases rest with
  | nil => rfl
  | cons s more =>
    cases s with
    | none => rfl
    | some c => rw [takeDigits, h c more rfl]

/-- Digits are taken, whatever has been taken before. -/
theorem takeDigits_append {ds : List Char} (hds : ∀ c ∈ ds, c.isDigit = true) (acc count : Nat) :
    ∃ n, ∀ rest, EndsDigits rest →
      takeDigits acc count (ds.map some ++ rest) = (n, count + ds.length, rest) := by
  induction ds generalizing acc count with
  | nil =>
    refine ⟨acc, fun rest hrest => ?_⟩
    exact takeDigits_of_ends hrest acc count
  | cons c ds ih =>
    have hdigit : Decimal.digit? c = some (c.toNat - 48) := if_pos (hds c List.mem_cons_self)
    obtain ⟨n, hn⟩ := ih (fun d hd => hds d (List.mem_cons_of_mem _ hd))
      (acc * 10 + (c.toNat - 48)) (count + 1)
    refine ⟨n, fun rest hrest => ?_⟩
    rw [List.map_cons, List.cons_append, takeDigits, hdigit]
    simp only
    rw [hn rest hrest, List.length_cons, Nat.add_assoc, Nat.add_comm 1]

/-- At least one digit is taken where there are digits. -/
theorem takeDigits_digits {ds : List Char} (hds : Digits ds) (acc : Nat) :
    ∃ n k, ds.length = k + 1 ∧ ∀ rest, EndsDigits rest →
      takeDigits acc 0 (ds.map some ++ rest) = (n, k + 1, rest) := by
  obtain ⟨n, hn⟩ := takeDigits_append hds.2 acc 0
  obtain ⟨k, hk⟩ : ∃ k, ds.length = k + 1 :=
    Nat.exists_eq_succ_of_ne_zero fun h => hds.1 (List.length_eq_zero_iff.1 h)
  refine ⟨n, k, hk, fun rest hrest => ?_⟩
  rw [hn rest hrest, hk, Nat.zero_add]

/-- A number is read from some digits and signs: what follows does not matter, and it can be passed
over. -/
def ReadsNumber (read : List Symbol → Node × Rest) (cs : List Char) : Prop :=
  ∃ num : Reading Number, num.skipped = none ∧ ∀ rest, Stops rest →
    read (cs.map some ++ rest) = (.number num, some rest)

/-- A number with its fraction and exponent read can be passed over. -/
theorem readsNumber_of_fractionNode {read : List Symbol → Node × Rest} {cs : List Char}
    (digits : Nat) (exponent : Int)
    (h : ∀ rest, Stops rest → read (cs.map some ++ rest) = fractionNode digits exponent rest) :
    ReadsNumber read cs :=
  ⟨⟨_, none⟩, rfl, h⟩

/-- A sign is taken, or none. -/
theorem takeSign_append {sign ds : List Char} (hsign : sign ∈ [[], ['+'], ['-']]) (hds : Digits ds) :
    ∃ negative, ∀ rest,
      takeSign ((sign ++ ds).map some ++ rest) = (negative, ds.map some ++ rest) := by
  simp only [List.mem_cons, List.not_mem_nil, or_false] at hsign
  rcases hsign with rfl | rfl | rfl
  · refine ⟨false, fun rest => ?_⟩
    obtain ⟨hne, hdigit⟩ := hds
    cases ds with
    | nil => exact absurd rfl hne
    | cons c ds =>
      have hc := hdigit c List.mem_cons_self
      show takeSign (some c :: (ds.map some ++ rest)) = _
      unfold takeSign
      split
      · rename_i heq
        cases heq
        cases hc
      · rename_i heq
        cases heq
        cases hc
      · rfl
  · exact ⟨false, fun rest => rfl⟩
  · exact ⟨true, fun rest => rfl⟩

/-- An exponent is read, from after its mark. -/
theorem readsNumber_exponent {sign ds : List Char} (hsign : sign ∈ [[], ['+'], ['-']])
    (hds : Digits ds) (digits : Nat) (scale : Int) :
    ReadsNumber (readExponent digits scale) (sign ++ ds) := by
  obtain ⟨negative, htake⟩ := takeSign_append hsign hds
  obtain ⟨e, k, _, he⟩ := takeDigits_digits hds 0
  refine readsNumber_of_fractionNode digits (if negative then scale - e else scale + e)
    fun rest hrest => ?_
  unfold readExponent
  rw [htake]
  simp only
  rw [he rest hrest.endsDigits]
  rfl

/-- A mark of an exponent is one for the reader, and ends the digits before it. -/
theorem isExponentMark_of_mem {mark : Char} (h : mark ∈ ['e', 'E']) :
    isExponentMark (some mark) = true ∧ Decimal.digit? mark = none ∧ mark ≠ '.' := by
  simp only [List.mem_cons, List.not_mem_nil, or_false] at h
  rcases h with rfl | rfl
  all_goals exact ⟨by decide, by decide, by decide⟩

/-- A fraction is read, from after its point, and the exponent after it. -/
theorem readsNumber_fraction {ds exponent : List Char} (hds : Digits ds) (hexponent : Exponent exponent)
    (digits : Nat) : ReadsNumber (readFraction digits) (ds ++ exponent) := by
  obtain ⟨n, k, _, hn⟩ := takeDigits_digits hds digits
  cases hexponent with
  | nil =>
    refine readsNumber_of_fractionNode n (-((k + 1 : Nat) : Int)) fun rest hrest => ?_
    rw [List.append_nil]
    unfold readFraction
    rw [hn rest hrest.endsDigits]
    cases rest with
    | nil => rfl
    | cons s more =>
      simp only
      rw [(hrest s more rfl).2.2]
      rfl
  | @digits mark sign es hmark hsign hes =>
    obtain ⟨hmark, hdigit, _⟩ := isExponentMark_of_mem hmark
    obtain ⟨num, hskip, hread⟩ := readsNumber_exponent hsign hes n (-((k + 1 : Nat) : Int))
    refine ⟨num, hskip, fun rest hrest => ?_⟩
    rw [List.map_append, List.append_assoc]
    show readFraction digits (ds.map some ++ (some mark :: ((sign ++ es).map some ++ rest))) = _
    unfold readFraction
    rw [hn _ (endsDigits_cons hdigit _)]
    simp only
    rw [if_pos hmark]
    exact hread rest hrest

/-- What is left does not matter for a number. -/
theorem integerNode_eq (negative : Bool) (n : Nat) (rest : List Symbol) :
    integerNode negative n rest = ((integerNode negative n []).1, some rest) := by
  unfold integerNode fractionNode
  repeat' split
  all_goals rfl

/-- A number in integer form can be passed over. -/
theorem integerNode_number (negative : Bool) (n : Nat) :
    ∃ num : Reading Number, num.skipped = none ∧ (integerNode negative n []).1 = .number num := by
  unfold integerNode fractionNode
  repeat' split
  all_goals exact ⟨_, rfl, rfl⟩

/-- Digits that stand for a number, of which no zero stands before another. -/
structure Stands (whole : List Char) (n : Nat) : Prop where
  ne_nil : whole ≠ []
  zero : whole.head? = some '0' → whole.length = 1
  taken : ∀ rest, EndsDigits rest →
    takeDigits 0 0 (whole.map some ++ rest) = (n, whole.length, rest)

/-- Digits are read, and then it depends on what follows how the number goes on. -/
theorem Stands.readNumber_eq {whole : List Char} {n : Nat} (h : Stands whole n) (negative : Bool) :
    ∀ rest, EndsDigits rest → readNumber negative (whole.map some ++ rest)
      = (match rest with
        | some '.' :: more => readFraction n more
        | c :: more => if isExponentMark c then readExponent n 0 more
                       else integerNode negative n rest
        | [] => integerNode negative n rest) := by
  intro rest hrest
  obtain ⟨c, cs, rfl⟩ := List.exists_cons_of_ne_nil h.ne_nil
  have hno : ¬ (((c :: cs).map some ++ rest).head? = some (some '0') ∧ 1 < cs.length + 1) := by
    rintro ⟨hhead, hlong⟩
    have hone := h.zero (congrArg some (Option.some.inj (Option.some.inj hhead)))
    rw [List.length_cons] at hone
    omega
  unfold readNumber
  rw [h.taken rest hrest, List.length_cons]
  exact if_neg hno

/-- Digits with neither fraction nor exponent are a number in integer form. -/
theorem Stands.readNumber_integer {whole : List Char} {n : Nat} (h : Stands whole n) (negative : Bool)
    {rest : List Symbol} (hrest : Stops rest) :
    readNumber negative (whole.map some ++ rest) = ((integerNode negative n []).1, some rest) := by
  rw [h.readNumber_eq negative rest hrest.endsDigits]
  cases rest with
  | nil => exact integerNode_eq negative n []
  | cons s more =>
    obtain ⟨_, hpoint, hmark⟩ := hrest s more rfl
    split
    · rename_i heq
      cases heq
      exact absurd rfl hpoint
    · rename_i heq
      cases heq
      rw [hmark]
      exact integerNode_eq negative n (s :: more)
    · rename_i heq
      cases heq

theorem exists_stands {whole : List Char} (hwhole : Digits whole)
    (hzero : whole.head? = some '0' → whole.length = 1) : ∃ n, Stands whole n := by
  obtain ⟨n, k, hlen, hn⟩ := takeDigits_digits hwhole 0
  exact ⟨n, hwhole.1, hzero, fun rest hrest => by rw [hn rest hrest, hlen]⟩

/-- A number is read, from after its sign. -/
theorem readsNumber_unsigned {whole fraction exponent : List Char} (hwhole : Digits whole)
    (hzero : whole.head? = some '0' → whole.length = 1) (hfraction : Fraction fraction)
    (hexponent : Exponent exponent) (negative : Bool) :
    ReadsNumber (readNumber negative) (whole ++ (fraction ++ exponent)) := by
  obtain ⟨n, hn⟩ := exists_stands hwhole hzero
  cases hfraction with
  | digits hds =>
    obtain ⟨num, hskip, hread⟩ := readsNumber_fraction hds hexponent n
    refine ⟨num, hskip, fun rest hrest => ?_⟩
    rw [List.map_append, List.append_assoc]
    refine (hn.readNumber_eq negative _ (endsDigits_cons (by decide) _)).trans ?_
    exact hread rest hrest
  | nil =>
    cases hexponent with
    | digits hmark hsign hes =>
      obtain ⟨hmark, hdigit, hpoint⟩ := isExponentMark_of_mem hmark
      obtain ⟨num, hskip, hread⟩ := readsNumber_exponent hsign hes n 0
      refine ⟨num, hskip, fun rest hrest => ?_⟩
      rw [List.map_append, List.append_assoc]
      refine (hn.readNumber_eq negative _ (endsDigits_cons hdigit _)).trans ?_
      split
      · rename_i heq
        cases heq
        exact absurd rfl hpoint
      · rename_i heq
        cases heq
        rw [if_pos hmark]
        exact hread rest hrest
      · rename_i heq
        cases heq
    | nil =>
      obtain ⟨num, hskip, hnode⟩ := integerNode_number negative n
      refine ⟨num, hskip, fun rest hrest => ?_⟩
      rw [List.append_nil, List.append_nil, hn.readNumber_integer negative hrest, hnode]

/-! ## §4. Numbers that are written. -/

/-- A number other than zero is written without a zero in front. -/
theorem head?_write_ne_zero {n : Nat} (h : 0 < n) : (Decimal.write n).head? ≠ some '0' := by
  induction n using Nat.strongRecOn with
  | _ n ih =>
    rw [Decimal.write]
    split
    · rename_i hn
      have key : ∀ d : Fin 10, 0 < d.val → Decimal.digitChar d.val ≠ '0' := by decide
      intro heq
      exact key ⟨n, hn⟩ h (Option.some.inj heq)
    · rename_i hn
      obtain ⟨c, cs, d, hw, _⟩ := Decimal.digit?_head_write (n / 10)
      have hrest := ih (n / 10) (by omega) (by omega)
      rw [hw] at hrest ⊢
      exact hrest

/-- A number is written in digits. -/
theorem digits_write (n : Nat) : Digits (Decimal.write n) := by
  refine ⟨Decimal.write_ne_nil n, ?_⟩
  induction n using Nat.strongRecOn with
  | _ n ih =>
    have key : ∀ d : Fin 10, (Decimal.digitChar d.val).isDigit = true := by decide
    intro c hc
    rw [Decimal.write] at hc
    split at hc
    · rename_i hn
      rw [List.mem_singleton.1 hc]
      exact key ⟨n, hn⟩
    · rename_i hn
      rcases List.mem_append.1 hc with hc | hc
      · exact ih (n / 10) (by omega) c hc
      · rw [List.mem_singleton.1 hc]
        exact key ⟨n % 10, Nat.mod_lt _ (by omega)⟩

/-- What is written for zero is one digit. -/
theorem length_write_of_head? {n : Nat} (h : (Decimal.write n).head? = some '0') :
    (Decimal.write n).length = 1 := by
  cases n with
  | zero =>
    rw [Decimal.write, if_pos (by decide)]
    rfl
  | succ n => exact absurd h (head?_write_ne_zero (Nat.succ_pos n))

/-- The digits of a number stand for it. -/
theorem stands_write (n : Nat) : Stands (Decimal.write n) n := by
  refine ⟨Decimal.write_ne_nil n, length_write_of_head?, fun rest hrest => ?_⟩
  have hread := Decimal.consume_write (Decimal.write n).length
    (f := fun acc count cs => takeDigits acc count (cs.map some ++ rest))
    (fun acc count d cs hd _ => by
      show takeDigits acc count (some (Decimal.digitChar d) :: (cs.map some ++ rest)) = _
      rw [takeDigits, Decimal.digit?_digitChar hd]) n 0 0 [] (by omega)
  simp only [List.append_nil, Nat.zero_mul, Nat.zero_add, List.map_nil, List.nil_append] at hread
  rw [hread, takeDigits_of_ends hrest]

/-- What is written for a number is a number. -/
theorem numeral_writeInt (n : Int) : Numeral (Decimal.writeInt n) := by
  have hnumeral (n : Nat) {sign : List Char} (hsign : sign ∈ [[], ['-']]) :
      Numeral (sign ++ (Decimal.write n ++ ([] ++ []))) :=
    .mk hsign (digits_write n) length_write_of_head? .nil .nil
  cases n with
  | ofNat n =>
    have h := hnumeral n List.mem_cons_self
    rwa [List.nil_append, List.append_nil, List.append_nil] at h
  | negSucc n =>
    have h := hnumeral (n + 1) (List.mem_cons_of_mem _ List.mem_cons_self)
    rwa [List.append_nil, List.append_nil] at h

/-! ## §5. Scalars. -/

/-- Blanks are passed over. -/
theorem skipGaps_gap {g : List Char} (hg : Gap g) (cs : List Symbol) :
    skipGaps (g.map some ++ cs) = skipGaps cs := by
  induction g with
  | nil => rfl
  | cons c g ih =>
    have hc := hg c List.mem_cons_self
    have hrest := ih fun c hc => hg c (List.mem_cons_of_mem _ hc)
    unfold skipGaps at hrest ⊢
    rw [List.map_cons, List.cons_append, List.dropWhile_cons_of_pos hc]
    exact hrest

/-- What is no blank is not passed over. -/
theorem skipGaps_cons {s : Symbol} (hs : isGap s = false) (cs : List Symbol) :
    skipGaps (s :: cs) = s :: cs := by
  unfold skipGaps
  rw [List.dropWhile_cons_of_neg (by rw [hs]; exact Bool.false_ne_true)]

/-- Blanks before a value do not matter. -/
theorem readNode_gap {g : List Char} (hg : Gap g) (fuel : Nat) (cs : List Symbol) :
    readNode fuel (g.map some ++ cs) = readNode fuel cs := by
  cases fuel with
  | zero => rfl
  | succ fuel =>
    unfold readNode
    rw [skipGaps_gap hg]

/-- What a value can begin with. -/
def Begins (c : Char) : Prop := isGap (some c) = false ∧ c ≠ ']' ∧ c ≠ ','

theorem begins_of_digit? {c : Char} {d : Nat} (h : Decimal.digit? c = some d) : Begins c := by
  refine ⟨?_, ?_, ?_⟩
  · cases hgap : isGap (some c) with
    | false => rfl
    | true =>
      unfold isGap at hgap
      simp only [Bool.or_eq_true, beq_iff_eq, Option.some.injEq] at hgap
      rcases hgap with ((rfl | rfl) | rfl) | rfl
      all_goals cases h
  · rintro rfl
    cases h
  · rintro rfl
    cases h

/-- A number without a sign is read. -/
theorem readNode_digit {c : Char} {d : Nat} (h : Decimal.digit? c = some d) (fuel : Nat)
    (cs : List Symbol) : readNode (fuel + 1) (some c :: cs) = readNumber false (some c :: cs) := by
  have hdigit : c.isDigit = true := by
    unfold Decimal.digit? at h
    split at h
    · assumption
    · cases h
  unfold readNode
  rw [skipGaps_cons (begins_of_digit? h).1]
  split
  · rename_i heq
    cases heq
  all_goals try (rename_i heq; cases heq; cases h)
  show (if c.isDigit = true then _ else _) = _
  rw [if_pos hdigit]

/-- A number is read, whatever follows it, and can be passed over. -/
theorem Numeral.read_eq {cs : List Char} (h : Numeral cs) :
    ∃ n : Node, n.skip = none ∧ ∀ fuel rest, Stops rest →
      readNode (fuel + 1) (cs.map some ++ rest) = (n, some rest) := by
  cases h with
  | @mk sign whole fraction exponent hsign hwhole hzero hfraction hexponent =>
    simp only [List.mem_cons, List.not_mem_nil, or_false] at hsign
    rcases hsign with rfl | rfl
    · obtain ⟨num, hskip, hread⟩ := readsNumber_unsigned hwhole hzero hfraction hexponent false
      obtain ⟨c, ds, rfl⟩ := List.exists_cons_of_ne_nil hwhole.1
      have hdigit : Decimal.digit? c = some (c.toNat - 48) := if_pos (hwhole.2 c List.mem_cons_self)
      refine ⟨.number num, hskip, fun fuel rest hrest => ?_⟩
      exact (readNode_digit hdigit fuel _).trans (hread rest hrest)
    · obtain ⟨num, hskip, hread⟩ := readsNumber_unsigned hwhole hzero hfraction hexponent true
      exact ⟨.number num, hskip, fun fuel rest hrest => hread rest hrest⟩

/-- A text in quotes is read, whatever follows it. -/
theorem readNode_letters {cs : List Char} (h : Letters cs) (fuel : Nat) (rest : List Symbol) :
    readNode (fuel + 1) (('"' :: (cs ++ ['"'])).map some ++ rest)
      = (.string (lettersReading cs), some rest) := by
  have hstep : readNode (fuel + 1) (('"' :: (cs ++ ['"'])).map some ++ rest)
      = (let r := readText (.ok []) false false ((cs ++ ['"']).map some ++ rest);
        (.string r.1, r.2)) := rfl
  rw [hstep, List.map_append, List.append_assoc]
  show (let r := readText (.ok []) false false (cs.map some ++ some '"' :: rest);
    (Node.string r.1, r.2)) = _
  rw [readText_letters h]

/-- A scalar is read, whatever follows it, and can be passed over. -/
theorem Scalar.read_eq {cs : List Char} (h : Scalar cs) :
    ∃ n : Node, n.skip = none ∧ ∀ fuel rest, Stops rest →
      readNode (fuel + 1) (cs.map some ++ rest) = (n, some rest) := by
  cases h with
  | null => exact ⟨_, rfl, fun fuel rest _ => rfl⟩
  | true_ => exact ⟨_, rfl, fun fuel rest _ => rfl⟩
  | false_ => exact ⟨_, rfl, fun fuel rest _ => rfl⟩
  | number h => exact h.read_eq
  | text h =>
    exact ⟨.string _, skipped_lettersReading h, fun fuel rest _ => readNode_letters h fuel rest⟩

theorem stops_nil : Stops [] := by
  intro s more heq
  cases heq

/-- A scalar is read as where it stands alone. -/
theorem Scalar.isRead {cs : List Char} (h : Scalar cs) (fuel : Nat) {rest : List Symbol}
    (hrest : Stops rest) : readNode (fuel + 1) (cs.map some ++ rest) = (.alone cs, some rest) := by
  obtain ⟨n, _, hread⟩ := h.read_eq
  have halone := hread 0 [] stops_nil
  rw [List.append_nil] at halone
  unfold Node.alone
  rw [halone, hread fuel rest hrest]

/-- A scalar can be passed over. -/
theorem Scalar.skip_alone {cs : List Char} (h : Scalar cs) : (Node.alone cs).skip = none := by
  obtain ⟨n, hskip, hread⟩ := h.read_eq
  have halone := hread 0 [] stops_nil
  rw [List.append_nil] at halone
  unfold Node.alone
  rw [halone]
  exact hskip

/-- What is written for a whole number stands for it. -/
theorem alone_writeInt (n : Int) : Node.alone (Decimal.writeInt n) = .ofValue (.int n) := by
  cases n with
  | ofNat n =>
    have hread := (stands_write n).readNumber_integer false stops_nil
    obtain ⟨c, more, d, hw, hd⟩ := Decimal.digit?_head_write n
    unfold Node.alone
    show (readNode 1 ((Decimal.write n).map some)).1 = _
    rw [List.append_nil, hw] at hread
    rw [hw, List.map_cons, readNode_digit hd 0, ← List.map_cons, hread]
    rfl
  | negSucc n =>
    have hread := (stands_write (n + 1)).readNumber_integer true stops_nil
    rw [List.append_nil] at hread
    show (readNumber true ((Decimal.write (n + 1)).map some)).1 = _
    rw [hread]
    show _ = (integerNode (decide (Int.negSucc n < 0)) (n + 1) []).1
    rw [decide_eq_true (Int.negSucc_lt_zero n)]

/-- What is written for a text stands for it. -/
theorem alone_quote (s : String) : Node.alone (quote s) = .string (.ok s) := by
  have hread := readNode_letters (letters_flatMap_escape s.toList) 0 []
  rw [List.append_nil, lettersReading_escape] at hread
  show (readNode 1 (('"' :: (s.toList.flatMap escape ++ ['"'])).map some)).1 = _
  rw [hread]

end UserDirectory.Json
