/-!
# Natural numbers in decimal

Writing a number with its fewest digits, and reading one that must stay below a limit.

Main statement: `read_write`, what is written reads back.
-/

namespace UserDirectory.Text.Decimal

/-- Why a text is not a number below the limit. -/
inductive Fault
  /-- nothing stands where a digit was due -/
  | empty
  /-- something else than a digit stands there -/
  | strayCharacter
  /-- the number reaches the limit -/
  | tooLarge
  deriving DecidableEq, Repr

/-- The sentence that tells a person about a fault. -/
def Fault.message : Fault → String
  | .empty => "cannot parse integer from empty string"
  | .strayCharacter => "invalid digit found in string"
  | .tooLarge => "number too large to fit in target type"

/-- The digit that a character stands for. -/
def digit? (c : Char) : Option Nat :=
  if c.isDigit then some (c.toNat - 48) else none

/-- The character of a digit below ten. -/
def digitChar (d : Nat) : Char :=
  Char.ofNat (48 + d)

/-- The digits of a number, the highest first. -/
def write (n : Nat) : List Char :=
  if n < 10 then [digitChar n] else write (n / 10) ++ [digitChar (n % 10)]

/-- The digits of a number as a text. -/
def text (n : Nat) : String :=
  String.ofList (write n)

/-- The digits of a whole number, after a minus sign if it is negative. -/
def writeInt : Int → List Char
  | .ofNat n => write n
  | .negSucc n => '-' :: write (n + 1)

/-- The digits of a number, with zeros in front to fill `width` places. -/
def writePadded (width n : Nat) : List Char :=
  List.replicate (width - (write n).length) '0' ++ write n

/-- Goes on reading digits after `acc`; a number stops being readable at its first digit that
takes it to the limit. -/
def readFrom (limit acc : Nat) : List Char → Except Fault Nat
  | [] => .ok acc
  | c :: cs =>
    match digit? c with
    | none => .error .strayCharacter
    | some d => if acc * 10 + d < limit then readFrom limit (acc * 10 + d) cs else .error .tooLarge

/-- Reads digits only: at least one, together below the limit. -/
def readDigits (limit : Nat) : List Char → Except Fault Nat
  | [] => .error .empty
  | cs => readFrom limit 0 cs

/-- Reads a number below the limit, after at most one plus sign. -/
def read (limit : Nat) : List Char → Except Fault Nat
  | [] => .error .empty
  | ['+'] => .error .strayCharacter
  | ['-'] => .error .strayCharacter
  | '+' :: cs => readDigits limit cs
  | cs => readDigits limit cs

/-! ## What is written reads back -/

theorem digit?_digitChar {d : Nat} (h : d < 10) : digit? (digitChar d) = some d := by
  have key : ∀ d : Fin 10, digit? (digitChar d.val) = some d.val := by decide
  exact key ⟨d, h⟩

/-- A number is written with at least one digit. -/
theorem write_ne_nil (n : Nat) : write n ≠ [] := by
  rw [write]; split <;> simp

/-- Reading goes through a written number and on with what follows it. -/
theorem readFrom_write_append (limit n acc : Nat) (cs : List Char)
    (h : acc * Nat.pow 10 (write n).length + n < limit) :
    readFrom limit acc (write n ++ cs)
      = readFrom limit (acc * Nat.pow 10 (write n).length + n) cs := by
  induction n using Nat.strongRecOn generalizing acc cs with
  | _ n ih =>
    by_cases hn : n < 10
    · have hw : write n = [digitChar n] := by rw [write]; simp [hn]
      rw [hw] at h ⊢
      have h' : acc * 10 + n < limit := by simpa using h
      simp [readFrom, digit?_digitChar hn, h']
    · have hw : write n = write (n / 10) ++ [digitChar (n % 10)] := by
        conv => lhs; rw [write]
        simp [hn]
      have hlt : n % 10 < 10 := Nat.mod_lt _ (by omega)
      have hpow : acc * Nat.pow 10 (write n).length + n
          = (acc * Nat.pow 10 (write (n / 10)).length + n / 10) * 10 + n % 10 := by
        have hstep (k : Nat) : Nat.pow 10 (k + 1) = Nat.pow 10 k * 10 := rfl
        rw [hw, List.length_append, List.length_singleton, hstep, ← Nat.mul_assoc]
        omega
      rw [hpow] at h ⊢
      rw [hw, List.append_assoc, ih (n / 10) (by omega) acc _ (by omega)]
      simp only [List.singleton_append, readFrom, digit?_digitChar hlt]
      rw [if_pos h]

/-- The first character of a written number is a digit. -/
theorem digit?_head_write (n : Nat) : ∃ c cs d, write n = c :: cs ∧ digit? c = some d := by
  induction n using Nat.strongRecOn with
  | _ n ih =>
    by_cases hn : n < 10
    · refine ⟨digitChar n, [], n, ?_, digit?_digitChar hn⟩
      rw [write]; simp [hn]
    · obtain ⟨c, cs, d, hw, hd⟩ := ih (n / 10) (by omega)
      refine ⟨c, cs ++ [digitChar (n % 10)], d, ?_, hd⟩
      rw [write]; simp [hn, hw]

/-- What is written below the limit reads back. -/
theorem read_write {limit n : Nat} (h : n < limit) : read limit (write n) = .ok n := by
  obtain ⟨c, cs, d, hw, hd⟩ := digit?_head_write n
  have hplus : c ≠ '+' := by
    rintro rfl
    have hnone : digit? '+' = none := by decide
    simp [hnone] at hd
  have hminus : c ≠ '-' := by
    rintro rfl
    have hnone : digit? '-' = none := by decide
    simp [hnone] at hd
  have hread : read limit (write n) = readFrom limit 0 (write n) := by
    rw [hw]
    cases cs <;> simp [read, readDigits, hplus, hminus]
  have := readFrom_write_append limit n 0 [] (by simpa using h)
  simpa [hread, readFrom] using this

end UserDirectory.Text.Decimal
