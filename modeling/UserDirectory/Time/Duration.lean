/-!
# Lengths of time

A length of time is a number of whole seconds below 2^64 and a number of nanoseconds that do not
make up another second.  Not every one of them is short enough for an instant to be moved by it.
-/

namespace UserDirectory.Time

/-- A length of time. -/
structure Duration where
  seconds : Nat
  nanos : Nat
  seconds_lt : seconds < UInt64.size := by decide
  nanos_lt : nanos < 1_000_000_000 := by decide
  deriving DecidableEq

namespace Duration

/-- No time at all. -/
def zero : Duration := ⟨0, 0, by decide, by decide⟩

instance : Inhabited Duration := ⟨zero⟩

/-- The length in nanoseconds. -/
def totalNanos (d : Duration) : Nat := d.seconds * 1_000_000_000 + d.nanos

/-- The length of a number of nanoseconds, if the seconds stay below 2^64. -/
def ofNanos? (n : Nat) : Option Duration :=
  if h : n / 1_000_000_000 < UInt64.size then
    some ⟨n / 1_000_000_000, n % 1_000_000_000, h, Nat.mod_lt _ (by decide)⟩
  else none

/-- The length of whole seconds, at most the longest there is. -/
def ofSeconds (n : Nat) : Duration :=
  ⟨min n (UInt64.size - 1), 0, by simp only [UInt64.size]; omega, by decide⟩

/-- The length of milliseconds, at most the longest there is. -/
def ofMillis (n : Nat) : Duration :=
  ⟨min (n / 1000) (UInt64.size - 1), n % 1000 * 1_000_000, by simp only [UInt64.size]; omega,
    by omega⟩

/-- The length of microseconds, at most the longest there is. -/
def ofMicros (n : Nat) : Duration :=
  ⟨min (n / 1_000_000) (UInt64.size - 1), n % 1_000_000 * 1_000, by simp only [UInt64.size]; omega,
    by omega⟩

/-- The whole milliseconds of a length. -/
def wholeMillis (d : Duration) : Nat := d.totalNanos / 1_000_000

/-- The milliseconds after which a length is over, a started one counted whole. -/
def millisUp (d : Duration) : Nat := (d.totalNanos + (1_000_000 - 1)) / 1_000_000

/-- The whole microseconds of a length. -/
def wholeMicros (d : Duration) : Nat := d.totalNanos / 1000

/-- A length is that of its nanoseconds. -/
theorem ofNanos?_totalNanos (d : Duration) : ofNanos? d.totalNanos = some d := by
  obtain ⟨s, n, hs, hn⟩ := d
  have hdiv : (s * 1_000_000_000 + n) / 1_000_000_000 = s := by omega
  have hmod : (s * 1_000_000_000 + n) % 1_000_000_000 = n := by omega
  unfold ofNanos? totalNanos
  simp only [hdiv, hmod]
  rw [dif_pos hs]

/-- Whether a length of time is short enough: at most 2^63 - 1 milliseconds. -/
def Moves (d : Duration) : Prop :=
  d.seconds < 9_223_372_036_854_775_807 / 1000
    ∨ (d.seconds = 9_223_372_036_854_775_807 / 1000
        ∧ d.nanos ≤ 9_223_372_036_854_775_807 % 1000 * 1_000_000)

instance (d : Duration) : Decidable d.Moves := inferInstanceAs (Decidable (_ ∨ _))

/-- Counted in nanoseconds. -/
theorem moves_iff (d : Duration) : d.Moves ↔ d.totalNanos ≤ 9_223_372_036_854_775_807_000_000 := by
  have hnanos := d.nanos_lt
  unfold Moves totalNanos
  omega

end Duration

/-- A length of time by which instants can be moved. -/
structure Shift where
  length : Duration
  moves : length.Moves

/-- The shift by a length of time, unless that is too long. -/
def Duration.shift? (d : Duration) : Option Shift := if h : d.Moves then some ⟨d, h⟩ else none

theorem Duration.shift?_of_moves {d : Duration} (h : d.Moves) : d.shift? = some ⟨d, h⟩ := dif_pos h

theorem Duration.shift?_of_not_moves {d : Duration} (h : ¬ d.Moves) : d.shift? = none := dif_neg h

end UserDirectory.Time
