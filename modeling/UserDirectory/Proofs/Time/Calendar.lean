import UserDirectory.Time.Instant
/-!
# Days and their dates

Main statements:
  * `isValid_dateOfDay`: every day has a date that the calendar has;
  * `Instant.year_bounds`: the years of the instants.
-/

namespace UserDirectory.Time

/-! ## §1. Every day has a date. -/

/-- The place of a day in its year from March to February is below the length of that year. -/
theorem marchYearOfDay_snd_lt (z : Int) : (marchYearOfDay z).2 < marchYearLength (marchYearOfDay z).1 := by
  have hbound := marchYearOfDay_snd z
  unfold marchYearLength
  split
  · omega
  · rename_i hleap
    simp only [isLeapYear, Bool.or_eq_true, Bool.and_eq_true, beq_iff_eq, bne_iff_ne, ne_eq] at hleap
    simp only [marchYearOfDay, cycleDays] at hbound hleap ⊢
    generalize hr : z % 146097 = r at *
    generalize hc : z / 146097 = c at *
    generalize hq : min (r / 36524) 3 = q at *
    generalize hs : r - q * 36524 = s at *
    generalize ht : s % 1461 = t at *
    generalize hg : s / 1461 = k at *
    generalize hy : min (t / 365) 3 = y at *
    have hq3 : q ≤ 3 := by omega
    have hk : k ≤ 24 := by omega
    have hy3 : y ≤ 3 := by omega
    have h4 : y = 3 → (c * 400 + q * 100 + k * 4 + y + 1) % 4 = 0 := by omega
    by_cases hlast : t - y * 365 = 365
    · exfalso
      have hthree : y = 3 := by omega
      have hs' : s = k * 1461 + 1460 := by omega
      have hcase : k ≤ 23 ∨ q = 3 := by omega
      have h100 : k ≤ 23 → (c * 400 + q * 100 + k * 4 + y + 1) % 100 ≠ 0 := by omega
      have h400 : q = 3 → k = 24 → (c * 400 + q * 100 + k * 4 + y + 1) % 400 = 0 := by omega
      omega
    · omega

/-- The day of a month is below its length: the months from March on are as long as the calendar says. -/
theorem isValid_dateInMarchYear {y d : Int} (h0 : 0 ≤ d) (h : d < marchYearLength y) :
    (dateInMarchYear y d).isValid = true := by
  have hlen : marchYearLength y ≤ 366 := by
    unfold marchYearLength
    split <;> omega
  unfold dateInMarchYear
  generalize hm : (5 * d + 2) / 153 = m
  have hm0 : 0 ≤ m := by omega
  have hm11 : m ≤ 11 := by omega
  have hcases : m = 0 ∨ m = 1 ∨ m = 2 ∨ m = 3 ∨ m = 4 ∨ m = 5 ∨ m = 6 ∨ m = 7 ∨ m = 8 ∨ m = 9 ∨
      m = 10 ∨ m = 11 := by omega
  unfold Date.isValid
  rcases hcases with rfl | rfl | rfl | rfl | rfl | rfl | rfl | rfl | rfl | rfl | rfl | rfl
  all_goals simp [daysInMonth, daysBeforeMonth]
  all_goals try omega
  -- only the last month asks how long the year is
  unfold marchYearLength at h
  split at h <;> rename_i hleap <;> simp [hleap] <;> omega

/-- Every day has a date that the calendar has. -/
theorem isValid_dateOfDay (n : Int) : (dateOfDay n).isValid = true :=
  isValid_dateInMarchYear (marchYearOfDay_snd (n + epochOffset)).1 (marchYearOfDay_snd_lt (n + epochOffset))

/-- A date of the calendar has at most two digits for its month and for its day. -/
theorem Date.small_of_isValid {d : Date} (h : d.isValid = true) : d.month < 100 ∧ d.day < 100 := by
  unfold isValid at h
  rw [Bool.and_eq_true, decide_eq_true_eq, decide_eq_true_eq] at h
  have hmonth := month_le_of_daysInMonth (y := d.year) (m := d.month) (by omega)
  have hday : daysInMonth d.year d.month ≤ 31 := by
    unfold daysInMonth
    repeat' split
    all_goals omega
  omega

/-! ## §2. The years of the instants. -/

/-- The date of an instant. -/
def Instant.date (t : Instant) : Date := dateOfDay (t.seconds / daySeconds)

/-- How far a day is from the years around it. -/
theorem year_bounds_of_isValid {d : Date} (h : d.isValid = true) :
    daysBeforeYear (d.year - 1) + 306 - epochOffset ≤ dayOfDate d
      ∧ dayOfDate d < daysBeforeYear d.year + 306 - epochOffset := by
  obtain ⟨y, m, k⟩ := d
  simp only [Date.isValid, Bool.and_eq_true, decide_eq_true_eq] at h
  obtain ⟨hk1, hk⟩ := h
  obtain ⟨hm1, hm12⟩ := month_le_of_daysInMonth (y := y) (m := m) (by omega)
  have hmonths : m = 1 ∨ m = 2 ∨ m = 3 ∨ m = 4 ∨ m = 5 ∨ m = 6 ∨ m = 7 ∨ m = 8 ∨ m = 9 ∨
      m = 10 ∨ m = 11 ∨ m = 12 := by omega
  have hyear : daysBeforeYear (y - 1) + 365 ≤ daysBeforeYear y
      ∧ (isLeapYear y = true → daysBeforeYear (y - 1) + 366 ≤ daysBeforeYear y) := by
    simp only [daysBeforeYear, isLeapYear, Bool.or_eq_true, Bool.and_eq_true, beq_iff_eq, bne_iff_ne,
      ne_eq]
    constructor
    · omega
    · omega
  rcases hmonths with rfl | rfl | rfl | rfl | rfl | rfl | rfl | rfl | rfl | rfl | rfl | rfl
  all_goals simp [daysInMonth] at hk
  all_goals simp [dayOfDate, daysBeforeMonth]
  all_goals try omega
  cases hleap : isLeapYear y
  · simp [hleap] at hk
    omega
  · simp [hleap] at hk
    have := hyear.2 hleap
    omega

/-- A later year begins later. -/
theorem daysBeforeYear_mono {y y' : Int} (h : y ≤ y') : daysBeforeYear y ≤ daysBeforeYear y' := by
  unfold daysBeforeYear
  omega

/-- The years of the instants. -/
theorem Instant.year_bounds (t : Instant) : -262143 ≤ t.date.year ∧ t.date.year ≤ 262142 := by
  obtain ⟨hlow, hhigh⟩ := year_bounds_of_isValid (isValid_dateOfDay (t.seconds / daySeconds))
  rw [dayOfDate_dateOfDay] at hlow hhigh
  have hearliest := t.earliest_le
  have hlatest := t.le_latest
  unfold earliestSecond daySeconds at hearliest
  unfold latestSecond daySeconds at hlatest
  have hfirst : dayOfDate ⟨-262143, 1, 1⟩ = daysBeforeYear (-262144) + 306 - epochOffset := by decide
  have hlast : dayOfDate ⟨262142, 12, 31⟩ + 1 = daysBeforeYear 262142 + 306 - epochOffset := by decide
  show _ ≤ (dateOfDay (t.seconds / daySeconds)).year ∧ (dateOfDay (t.seconds / daySeconds)).year ≤ _
  unfold daySeconds at hlow hhigh ⊢
  constructor
  · by_cases hyear : (dateOfDay (t.seconds / 86400)).year ≤ -262144
    · have := daysBeforeYear_mono hyear
      omega
    · omega
  · by_cases hyear : 262142 ≤ (dateOfDay (t.seconds / 86400)).year - 1
    · have := daysBeforeYear_mono hyear
      omega
    · omega

end UserDirectory.Time
