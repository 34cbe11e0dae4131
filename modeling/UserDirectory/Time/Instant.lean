import UserDirectory.Time.Calendar
import UserDirectory.Time.Duration
/-!
# Instants

An instant of universal time, to the nanosecond, in the years -262143 to 262142.  A leap second is
counted as a second billion of nanoseconds within the last second of a minute.

Main statement: `lt_iff_totalNanos_lt`, outside leap seconds the order is that of the nanoseconds
since 1970.
-/

namespace UserDirectory.Time

/-- The seconds of a day. -/
def daySeconds : Int := 86400

/-- The first second of the earliest year. -/
def earliestSecond : Int := dayOfDate ⟨-262143, 1, 1⟩ * daySeconds

/-- The last second of the latest year. -/
def latestSecond : Int := dayOfDate ⟨262142, 12, 31⟩ * daySeconds + (daySeconds - 1)

/-- An instant, as seconds since 1970 and nanoseconds within the second. -/
structure Instant where
  seconds : Int
  nanos : Nat
  earliest_le : earliestSecond ≤ seconds := by decide
  le_latest : seconds ≤ latestSecond := by decide
  nanos_lt : nanos < 2_000_000_000 := by decide
  leap_at_59 : 1_000_000_000 ≤ nanos → seconds % 60 = 59 := by decide
  deriving DecidableEq

namespace Instant

/-- The instant with these seconds and nanoseconds, if there is one. -/
def of? (seconds : Int) (nanos : Nat) : Option Instant :=
  if h : earliestSecond ≤ seconds ∧ seconds ≤ latestSecond ∧ nanos < 2_000_000_000 ∧
      (1_000_000_000 ≤ nanos → seconds % 60 = 59) then
    some ⟨seconds, nanos, h.1, h.2.1, h.2.2.1, h.2.2.2⟩
  else none

/-- The start of 1970. -/
def epoch : Instant := ⟨0, 0, by decide, by decide, by decide, by decide⟩

instance : Inhabited Instant := ⟨epoch⟩

instance : LT Instant :=
  ⟨fun a b => a.seconds < b.seconds ∨ (a.seconds = b.seconds ∧ a.nanos < b.nanos)⟩

instance : LE Instant := ⟨fun a b => ¬ b < a⟩

instance (a b : Instant) : Decidable (a < b) :=
  inferInstanceAs (Decidable (_ ∨ _))

instance (a b : Instant) : Decidable (a ≤ b) :=
  inferInstanceAs (Decidable (¬ _))

/-- The nanoseconds since 1970. -/
def totalNanos (t : Instant) : Int := t.seconds * 1_000_000_000 + t.nanos

/-- The instant a shift earlier, if it is not before the earliest.  It is in a leap second only if the
shift does not lead out of one. -/
def earlier? (t : Instant) (s : Shift) : Option Instant :=
  if s.length.totalNanos + 1_000_000_000 ≤ t.nanos then
    of? t.seconds (t.nanos - s.length.totalNanos)
  else
    let n := t.totalNanos - s.length.totalNanos
    of? (n / 1_000_000_000) (n % 1_000_000_000).toNat

/-- The instant a length of time earlier, if that is not too long and not before the earliest. -/
def minus? (t : Instant) (d : Duration) : Option Instant := d.shift?.bind t.earlier?

/-- The instant a length of time later, if it is not after the latest. -/
def plus? (t : Instant) (d : Duration) : Option Instant :=
  let n := t.totalNanos + d.totalNanos
  of? (n / 1_000_000_000) (n % 1_000_000_000).toNat

/-- The microseconds from the start of 2000, cut toward it. -/
def microsSince2000 (t : Instant) : Int :=
  Int.tdiv (t.totalNanos - 946684800 * 1_000_000_000) 1000

/-- Outside leap seconds, one instant is before another when it is fewer nanoseconds from 1970. -/
theorem lt_iff_totalNanos_lt (a b : Instant) (ha : a.nanos < 1_000_000_000) (hb : b.nanos < 1_000_000_000) :
    a < b ↔ a.totalNanos < b.totalNanos := by
  show (a.seconds < b.seconds ∨ (a.seconds = b.seconds ∧ a.nanos < b.nanos)) ↔ _
  simp only [totalNanos]
  omega

end Instant

end UserDirectory.Time
