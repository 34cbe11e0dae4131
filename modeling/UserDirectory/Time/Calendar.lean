/-!
# The proleptic Gregorian calendar

Days are counted from 1970-01-01, day zero.  Years are counted from March to February, so that the
day a leap year adds is the last of its year, and in cycles of 400 years, which have equally many
days.  A cycle is four centuries, a century 25 groups of four years, and the last piece of each
may be a day longer or shorter than the others.

Main statements: `dayOfDate_dateOfDay` and `dateOfDay_dayOfDate`, the two directions are inverse.
-/

namespace UserDirectory.Time

/-- A day by its year, month and place in the month. -/
structure Date where
  year : Int
  month : Nat
  day : Nat
  deriving DecidableEq, Repr

/-- Whether a year has a 29th of February. -/
def isLeapYear (y : Int) : Bool :=
  (y % 4 == 0 && y % 100 != 0) || y % 400 == 0

/-- The number of days of a month; of a month that does not exist, none. -/
def daysInMonth (y : Int) (m : Nat) : Nat :=
  if m == 2 then (if isLeapYear y then 29 else 28)
  else if m == 4 || m == 6 || m == 9 || m == 11 then 30
  else if 1 ≤ m && m ≤ 12 then 31
  else 0

/-- Whether the calendar has this day. -/
def Date.isValid (d : Date) : Bool :=
  1 ≤ d.day && d.day ≤ daysInMonth d.year d.month

/-- The days of 400 years. -/
def cycleDays : Int := 146097

/-- The days from 0000-03-01 to 1970-01-01. -/
def epochOffset : Int := 719468

/-- The days from the first of March to the first of the month that is `m` months later. -/
def daysBeforeMonth (m : Int) : Int := (153 * m + 2) / 5

/-- The days from 0000-03-01 to the first of March of a year. -/
def daysBeforeYear (y : Int) : Int := y * 365 + y / 4 - y / 100 + y / 400

/-- The number of a day, counted from 1970-01-01. -/
def dayOfDate (d : Date) : Int :=
  let marchYear := if d.month ≤ 2 then d.year - 1 else d.year
  let month : Int := if d.month ≤ 2 then d.month + 9 else d.month - 3
  daysBeforeYear marchYear + daysBeforeMonth month + (d.day - 1) - epochOffset

/-- The year from March to February and the day in it, counted from zero, of a day that is counted
from 0000-03-01. -/
def marchYearOfDay (z : Int) : Int × Int :=
  let cycle := z / cycleDays
  let inCycle := z % cycleDays
  let century := min (inCycle / 36524) 3
  let inCentury := inCycle - century * 36524
  let group := inCentury / 1461
  let inGroup := inCentury % 1461
  let year := min (inGroup / 365) 3
  (cycle * 400 + century * 100 + group * 4 + year, inGroup - year * 365)

/-- The date of a day, counted from zero, of a year from March to February. -/
def dateInMarchYear (marchYear dayOfYear : Int) : Date :=
  let month := (5 * dayOfYear + 2) / 153
  let day := (dayOfYear - daysBeforeMonth month + 1).toNat
  if month < 10 then ⟨marchYear, (month + 3).toNat, day⟩
  else ⟨marchYear + 1, (month - 9).toNat, day⟩

/-- The day with a number. -/
def dateOfDay (n : Int) : Date :=
  let found := marchYearOfDay (n + epochOffset)
  dateInMarchYear found.1 found.2

/-! ## The two directions are inverse -/

/-- A day is as far from 0000-03-01 as its year and its place in the year say. -/
theorem daysBeforeYear_marchYearOfDay (z : Int) :
    daysBeforeYear (marchYearOfDay z).1 + (marchYearOfDay z).2 = z := by
  simp only [marchYearOfDay, daysBeforeYear, cycleDays]
  generalize hc : z / 146097 = c
  generalize hr : z % 146097 = r
  have hr0 : 0 ≤ r := by omega
  have hr1 : r < 146097 := by omega
  have hz : z = c * 146097 + r := by omega
  generalize hq : min (r / 36524) 3 = q
  have hq0 : 0 ≤ q := by omega
  have hq3 : q ≤ 3 := by omega
  generalize hs : r - q * 36524 = s
  have hs0 : 0 ≤ s := by omega
  have hs1 : s ≤ 36524 := by omega
  generalize hg : s / 1461 = g
  generalize ht : s % 1461 = t
  have hg0 : 0 ≤ g := by omega
  have hg24 : g ≤ 24 := by omega
  have ht0 : 0 ≤ t := by omega
  have ht1 : t < 1461 := by omega
  have hst : s = g * 1461 + t := by omega
  generalize hy : min (t / 365) 3 = y
  have hy0 : 0 ≤ y := by omega
  have hy3 : y ≤ 3 := by omega
  have h4 : (c * 400 + q * 100 + g * 4 + y) / 4 = c * 100 + q * 25 + g := by omega
  have h100 : (c * 400 + q * 100 + g * 4 + y) / 100 = c * 4 + q := by omega
  have h400 : (c * 400 + q * 100 + g * 4 + y) / 400 = c := by omega
  rw [h4, h100, h400]
  omega

/-- The day in a year is one of 366. -/
theorem marchYearOfDay_snd (z : Int) : 0 ≤ (marchYearOfDay z).2 ∧ (marchYearOfDay z).2 ≤ 365 := by
  simp only [marchYearOfDay, cycleDays]
  generalize hr : z % 146097 = r
  have hr0 : 0 ≤ r := by omega
  have hr1 : r < 146097 := by omega
  generalize hq : min (r / 36524) 3 = q
  generalize hs : r - q * 36524 = s
  have hs0 : 0 ≤ s := by omega
  have hs1 : s ≤ 36524 := by omega
  generalize ht : s % 1461 = t
  have ht0 : 0 ≤ t := by omega
  have ht1 : t < 1461 := by omega
  omega

/-- Each number is that of its day. -/
theorem dayOfDate_dateOfDay (n : Int) : dayOfDate (dateOfDay n) = n := by
  have hsum := daysBeforeYear_marchYearOfDay (n + epochOffset)
  have hbound := marchYearOfDay_snd (n + epochOffset)
  simp only [dateOfDay, dateInMarchYear]
  generalize marchYearOfDay (n + epochOffset) = p at hsum hbound ⊢
  generalize hm : (5 * p.2 + 2) / 153 = m
  have hm0 : 0 ≤ m := by omega
  have hm11 : m ≤ 11 := by omega
  have hday : 0 ≤ p.2 - daysBeforeMonth m := by
    simp only [daysBeforeMonth]; omega
  split
  · have h2 : ¬ (m + 3).toNat ≤ 2 := by omega
    have hmonth : ((m + 3).toNat : Int) - 3 = m := by omega
    simp only [dayOfDate, h2, if_false, hmonth]
    omega
  · have h2 : (m - 9).toNat ≤ 2 := by omega
    have hmonth : ((m - 9).toNat : Int) + 9 = m := by omega
    have hyear : p.1 + 1 - 1 = p.1 := by omega
    simp only [dayOfDate, h2, if_true, hmonth, hyear]
    omega

/-- The number of days of a year from March to February. -/
def marchYearLength (y : Int) : Int := if isLeapYear (y + 1) then 366 else 365

/-- A day within a year is found in that year. -/
theorem marchYearOfDay_daysBeforeYear (y d : Int) (hd0 : 0 ≤ d) (hd1 : d < marchYearLength y) :
    marchYearOfDay (daysBeforeYear y + d) = (y, d) := by
  obtain ⟨c, q, g, k, hy, hq0, hq3, hg0, hg24, hk0, hk3⟩ :
      ∃ c q g k : Int, y = c * 400 + q * 100 + g * 4 + k ∧ 0 ≤ q ∧ q ≤ 3 ∧ 0 ≤ g ∧ g ≤ 24 ∧
        0 ≤ k ∧ k ≤ 3 :=
    ⟨y / 400, y % 400 / 100, y % 400 % 100 / 4, y % 400 % 100 % 4, by omega, by omega, by omega,
      by omega, by omega, by omega, by omega⟩
  have hlen : d ≤ 364 ∨ (d = 365 ∧ k = 3 ∧ (g ≤ 23 ∨ q = 3)) := by
    unfold marchYearLength at hd1
    split at hd1
    · rename_i hleap
      simp only [isLeapYear, Bool.or_eq_true, Bool.and_eq_true, beq_iff_eq, bne_iff_ne,
        ne_eq] at hleap
      by_cases h : d ≤ 364
      · exact .inl h
      · refine .inr ⟨by omega, ?_, ?_⟩ <;> omega
    · exact .inl (by omega)
  have hdays : daysBeforeYear y = c * 146097 + (q * 36524 + (g * 1461 + k * 365)) := by
    have h4 : y / 4 = c * 100 + q * 25 + g := by omega
    have h100 : y / 100 = c * 4 + q := by omega
    have h400 : y / 400 = c := by omega
    simp only [daysBeforeYear, h4, h100, h400]
    omega
  have hkd0 : 0 ≤ k * 365 + d := by omega
  have hkd1 : k * 365 + d < 1461 := by omega
  have hs0 : 0 ≤ g * 1461 + (k * 365 + d) := by omega
  have hs1 : g * 1461 + (k * 365 + d) ≤ 36523 ∨
      (q = 3 ∧ g * 1461 + (k * 365 + d) = 36524) := by omega
  simp only [marchYearOfDay, cycleDays, hdays]
  generalize hs : g * 1461 + (k * 365 + d) = s at hs0 hs1
  have hz : c * 146097 + (q * 36524 + (g * 1461 + k * 365)) + d
      = c * 146097 + (q * 36524 + s) := by omega
  rw [hz]
  have hin : (c * 146097 + (q * 36524 + s)) % 146097 = q * 36524 + s := by omega
  have hcy : (c * 146097 + (q * 36524 + s)) / 146097 = c := by omega
  rw [hin, hcy]
  have hcent : min ((q * 36524 + s) / 36524) 3 = q := by omega
  rw [hcent]
  have hrest : q * 36524 + s - q * 36524 = s := by omega
  rw [hrest]
  have hgr : s / 1461 = g := by omega
  have hgm : s % 1461 = k * 365 + d := by omega
  rw [hgr, hgm]
  have hyr : min ((k * 365 + d) / 365) 3 = k := by omega
  rw [hyr]
  have hd : k * 365 + d - k * 365 = d := by omega
  rw [hd, hy]

/-- A month that has days is one of the twelve. -/
theorem month_le_of_daysInMonth {y : Int} {m : Nat} (h : 0 < daysInMonth y m) :
    1 ≤ m ∧ m ≤ 12 := by
  simp only [daysInMonth] at h
  split at h
  · rename_i h2; simp only [beq_iff_eq] at h2; omega
  · split at h
    · rename_i h4; simp only [Bool.or_eq_true, beq_iff_eq] at h4; omega
    · split at h
      · rename_i h1; simp only [Bool.and_eq_true, decide_eq_true_eq] at h1; exact h1
      · omega

/-- A day of a month is found in that month. -/
theorem dateInMarchYear_daysBeforeMonth (y m k : Int) (hk1 : 1 ≤ k)
    (hk : daysBeforeMonth m + k ≤ daysBeforeMonth (m + 1)) :
    dateInMarchYear y (daysBeforeMonth m + (k - 1))
      = if m < 10 then ⟨y, (m + 3).toNat, k.toNat⟩ else ⟨y + 1, (m - 9).toNat, k.toNat⟩ := by
  have hmonth : (5 * (daysBeforeMonth m + (k - 1)) + 2) / 153 = m := by
    simp only [daysBeforeMonth] at hk ⊢
    omega
  have hday : daysBeforeMonth m + (k - 1) - daysBeforeMonth m + 1 = k := by omega
  simp only [dateInMarchYear, hmonth, hday]

/-- Each day of the calendar is that of its number. -/
theorem dateOfDay_dayOfDate {d : Date} (h : d.isValid = true) : dateOfDay (dayOfDate d) = d := by
  obtain ⟨y, m, k⟩ := d
  simp only [Date.isValid, Bool.and_eq_true, decide_eq_true_eq] at h
  obtain ⟨hk1, hk⟩ := h
  obtain ⟨hm1, hm12⟩ := month_le_of_daysInMonth (y := y) (m := m) (by omega)
  have hmonths : m = 1 ∨ m = 2 ∨ m = 3 ∨ m = 4 ∨ m = 5 ∨ m = 6 ∨ m = 7 ∨ m = 8 ∨ m = 9 ∨
      m = 10 ∨ m = 11 ∨ m = 12 := by omega
  have key : ∀ marchYear month : Int, 0 ≤ month →
      daysBeforeMonth month + k ≤ daysBeforeMonth (month + 1) →
      daysBeforeMonth month + ((k : Int) - 1) < marchYearLength marchYear →
      dateOfDay (daysBeforeYear marchYear + daysBeforeMonth month + ((k : Int) - 1) - epochOffset)
        = if month < 10 then ⟨marchYear, (month + 3).toNat, k⟩
          else ⟨marchYear + 1, (month - 9).toNat, k⟩ := by
    intro marchYear month h0 hlen hyear
    have hback : daysBeforeYear marchYear + daysBeforeMonth month + ((k : Int) - 1) - epochOffset
        + epochOffset = daysBeforeYear marchYear + (daysBeforeMonth month + ((k : Int) - 1)) := by
      omega
    have hpos : 0 ≤ daysBeforeMonth month + ((k : Int) - 1) := by
      simp only [daysBeforeMonth]; omega
    simp only [dateOfDay, hback]
    rw [marchYearOfDay_daysBeforeYear _ _ hpos hyear,
      dateInMarchYear_daysBeforeMonth _ _ _ (by omega) hlen]
    simp
  have hshort : 365 ≤ marchYearLength (y - 1) ∧ 365 ≤ marchYearLength y := by
    constructor <;> unfold marchYearLength <;> split <;> omega
  by_cases hm2 : m ≤ 2
  · have hlen : daysBeforeMonth ((m : Int) + 9) + k ≤ daysBeforeMonth ((m : Int) + 9 + 1) ∧
        daysBeforeMonth ((m : Int) + 9) + ((k : Int) - 1) < marchYearLength (y - 1) := by
      have hm : m = 1 ∨ m = 2 := by omega
      rcases hm with rfl | rfl
      · simp [daysInMonth] at hk
        simp only [daysBeforeMonth]
        omega
      · have hyear : y - 1 + 1 = y := by omega
        simp only [daysInMonth, beq_self_eq_true, if_true] at hk
        unfold marchYearLength
        simp only [hyear, daysBeforeMonth]
        split <;> rename_i hleap <;> simp [hleap] at hk <;> omega
    simp only [dayOfDate, hm2, if_true]
    rw [key _ _ (by omega) hlen.1 hlen.2, if_neg (by omega)]
    congr 1 <;> omega
  · have hlen : daysBeforeMonth ((m : Int) - 3) + k ≤ daysBeforeMonth ((m : Int) - 3 + 1) := by
      rcases hmonths with rfl | rfl | rfl | rfl | rfl | rfl | rfl | rfl | rfl | rfl | rfl | rfl <;>
        simp [daysInMonth] at hk <;> simp only [daysBeforeMonth] <;> omega
    have hyear : daysBeforeMonth ((m : Int) - 3) + ((k : Int) - 1) < marchYearLength y := by
      simp only [daysBeforeMonth] at hlen ⊢
      omega
    simp only [dayOfDate, hm2, if_false]
    rw [key _ _ (by omega) hlen hyear, if_pos (by omega)]
    congr 1
    omega

end UserDirectory.Time
