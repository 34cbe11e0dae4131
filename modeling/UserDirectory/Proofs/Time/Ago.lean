import UserDirectory.Time.Instant
/-!
# How long ago

The instant a length of time ago is found in two steps, each with a limit of its own: the length must be
one by which instants can be moved, and the instant one that there is.  As no two instants are so far
apart that the first limit matters, both together refuse only what lies before the earliest instant, and
what they do not refuse is exact.

Main statements:
  * `Instant.minus?_eq_none_iff`, `Instant.minus?_eq_some_iff`: when there is such an instant, and which;
  * `Instant.Ago.le`: what is longer ago is not later.
-/

namespace UserDirectory.Time.Instant

variable {t u : Instant} {d d' : Duration}

/-! ## §1. The limits of the instants. -/

/-- The nanoseconds of the earliest instant, counted from 1970. -/
def earliestNanos : Int := earliestSecond * 1_000_000_000

theorem earliestNanos_le (t : Instant) : earliestNanos ≤ t.totalNanos := by
  have hearliest := t.earliest_le
  unfold earliestNanos totalNanos
  omega

/-- No instant is further from the earliest than an instant can be moved. -/
theorem sub_earliestNanos_le (t : Instant) :
    t.totalNanos - earliestNanos ≤ 9_223_372_036_854_775_807_000_000 := by
  have hlatest := t.le_latest
  have hnanos := t.nanos_lt
  have hfirst : earliestSecond = -8334601228800 := by decide
  have hlast : latestSecond = 8210266876799 := by decide
  unfold earliestNanos totalNanos
  omega

theorem of?_eq_some_iff {seconds : Int} {nanos : Nat} :
    of? seconds nanos = some t ↔ t.seconds = seconds ∧ t.nanos = nanos := by
  obtain ⟨s, n, hearliest, hlatest, hnanos, hleap⟩ := t
  unfold of?
  constructor
  · intro h
    split at h
    · cases h
      exact ⟨rfl, rfl⟩
    · cases h
  · rintro ⟨rfl, rfl⟩
    rw [dif_pos ⟨hearliest, hlatest, hnanos, hleap⟩]

/-! ## §2. Instants some time ago. -/

/-- An instant is a length of time before another, to the nanosecond.  It is in a leap second only if the
length does not lead out of one. -/
structure Ago (t : Instant) (d : Duration) (u : Instant) : Prop where
  nanos_eq : u.totalNanos = t.totalNanos - d.totalNanos
  leap_iff : 1_000_000_000 ≤ u.nanos ↔ d.totalNanos + 1_000_000_000 ≤ t.nanos

/-- The instant a shift earlier is exact. -/
theorem earlier?_eq_some_iff {s : Shift} : t.earlier? s = some u ↔ t.Ago s.length u := by
  have hlimit := u.nanos_lt
  have ht := t.nanos_lt
  unfold earlier?
  constructor
  · intro h
    split at h
    · obtain ⟨hseconds, hnanos⟩ := of?_eq_some_iff.1 h
      refine ⟨?_, by omega⟩
      unfold totalNanos
      omega
    · obtain ⟨hseconds, hnanos⟩ := of?_eq_some_iff.1 h
      refine ⟨?_, by omega⟩
      unfold totalNanos at hseconds hnanos ⊢
      omega
  · rintro ⟨htotal, hleap⟩
    unfold totalNanos at htotal
    split
    · exact of?_eq_some_iff.2 ⟨by omega, by omega⟩
    · refine of?_eq_some_iff.2 ?_
      unfold totalNanos
      exact ⟨by omega, by omega⟩

/-- There is an instant a shift earlier unless that is before the earliest. -/
theorem exists_earlier? {s : Shift} (h : earliestNanos ≤ t.totalNanos - s.length.totalNanos) :
    ∃ u, t.earlier? s = some u := by
  have hlatest := t.le_latest
  have ht := t.nanos_lt
  unfold earliestNanos totalNanos at h
  unfold earlier?
  split
  · -- it is in the same leap second
    exact ⟨_, dif_pos ⟨t.earliest_le, hlatest, by omega, fun _ => t.leap_at_59 (by omega)⟩⟩
  · unfold totalNanos
    exact ⟨_, dif_pos ⟨by omega, by omega, by omega, fun hleap => by omega⟩⟩

/-- What is longer than an instant can be moved leads to before the earliest instant. -/
theorem lt_earliestNanos_of_not_moves (t : Instant) (h : ¬ d.Moves) :
    t.totalNanos - d.totalNanos < earliestNanos := by
  have hfar := t.sub_earliestNanos_le
  rw [Duration.moves_iff] at h
  omega

/-- The instant a length of time ago is exact. -/
theorem minus?_eq_some_iff : t.minus? d = some u ↔ t.Ago d u := by
  unfold minus?
  by_cases hmoves : d.Moves
  · rw [Duration.shift?_of_moves hmoves, Option.bind_some, earlier?_eq_some_iff]
  · rw [Duration.shift?_of_not_moves hmoves, Option.bind_none]
    refine ⟨nofun, fun h => ?_⟩
    have hbefore := t.lt_earliestNanos_of_not_moves hmoves
    rw [← h.nanos_eq] at hbefore
    exact absurd u.earliestNanos_le (Int.not_le.2 hbefore)

/-- There is none only where that is before the earliest. -/
theorem minus?_eq_none_iff : t.minus? d = none ↔ t.totalNanos - d.totalNanos < earliestNanos := by
  unfold minus?
  by_cases hmoves : d.Moves
  · rw [Duration.shift?_of_moves hmoves, Option.bind_some]
    constructor
    · intro h
      refine Int.not_le.1 fun hreach => ?_
      obtain ⟨u, hu⟩ := exists_earlier? (s := ⟨d, hmoves⟩) hreach
      rw [h] at hu
      cases hu
    · intro hbefore
      refine Option.eq_none_iff_forall_ne_some.2 fun u hu => ?_
      have hago := earlier?_eq_some_iff.1 hu
      rw [← hago.nanos_eq] at hbefore
      exact absurd u.earliestNanos_le (Int.not_le.2 hbefore)
  · rw [Duration.shift?_of_not_moves hmoves, Option.bind_none]
    exact iff_of_true rfl (t.lt_earliestNanos_of_not_moves hmoves)

/-! ## §3. The order of the instants. -/

theorem lt_iff : t < u ↔ t.seconds < u.seconds ∨ (t.seconds = u.seconds ∧ t.nanos < u.nanos) := Iff.rfl

theorem le_iff_not_lt : t ≤ u ↔ ¬ u < t := Iff.rfl

theorem lt_of_lt_of_le {s : Instant} (h : s < t) (h' : t ≤ u) : s < u := by
  rw [lt_iff] at h ⊢
  rw [le_iff_not_lt, lt_iff] at h'
  omega

/-- What is longer ago is not later. -/
theorem Ago.le {u' : Instant} (h : t.Ago d u) (h' : t.Ago d' u') (hle : d.totalNanos ≤ d'.totalNanos) :
    u' ≤ u := by
  obtain ⟨htotal, hleap⟩ := h
  obtain ⟨htotal', hleap'⟩ := h'
  have hlimit := u.nanos_lt
  rw [le_iff_not_lt, lt_iff]
  unfold totalNanos at htotal htotal'
  omega

/-- Outside leap seconds, what was before an instant some time ago was so by nanoseconds. -/
theorem Ago.lt_iff {s : Instant} (h : t.Ago d u) (ht : t.nanos < 1_000_000_000)
    (hs : s.nanos < 1_000_000_000) : s < u ↔ s.totalNanos < t.totalNanos - d.totalNanos := by
  have hu : u.nanos < 1_000_000_000 := by
    have hleap := h.leap_iff
    omega
  rw [lt_iff_totalNanos_lt s u hs hu, h.nanos_eq]

end UserDirectory.Time.Instant
