import UserDirectory.Telemetry.Metrics
/-!
# What is counted

Main statements:
  * `Metrics.method_record`: a call that has ended is counted for its method and for no other;
  * `Metrics.Failed.trans`: calls that fail one after another add up.
-/

namespace UserDirectory.Telemetry

open UserDirectory.Time (Duration)

/-- A call that has ended is counted for its method and for no other. -/
theorem Metrics.method_record (m : Metrics) (name other : String) (took : Duration) (failed : Bool) :
    (m.record name took failed).method other
      = if other = name then (m.method name).record (microsOf took) failed else m.method other := by
  unfold Metrics.method record
  rw [SortedMap.get?_insert]
  split <;> rfl

/-- One call more of a method has ended, and it has failed; all else that is counted is as it was. -/
structure Metrics.FailedOnce (name : String) (m m' : Metrics) : Prop where
  totalCalls_eq : m'.totalCalls = m.totalCalls + 1
  totalErrors_eq : m'.totalErrors = m.totalErrors + 1
  calls_eq : (m'.method name).calls = (m.method name).calls + 1
  errors_eq : (m'.method name).errors = (m.method name).errors + 1
  inFlight_eq : m'.inFlight = m.inFlight
  others : ∀ other, other ≠ name → m'.method other = m.method other

theorem Metrics.failedOnce_record (m : Metrics) (name : String) (took : Duration) :
    FailedOnce name m (m.record name took true) where
  totalCalls_eq := rfl
  totalErrors_eq := rfl
  calls_eq := by
    rw [method_record, if_pos rfl]
    rfl
  errors_eq := by
    rw [method_record, if_pos rfl]
    rfl
  inFlight_eq := rfl
  others other hother := by rw [method_record, if_neg hother]

/-- Some calls of a method that were in flight have ended, and they have all failed; all else that is
counted is as it was. -/
structure Metrics.Failed (n : Nat) (name : String) (m m' : Metrics) : Prop where
  totalCalls_eq : m'.totalCalls = m.totalCalls + UInt64.ofNat n
  totalErrors_eq : m'.totalErrors = m.totalErrors + UInt64.ofNat n
  calls_eq : (m'.method name).calls = (m.method name).calls + UInt64.ofNat n
  errors_eq : (m'.method name).errors = (m.method name).errors + UInt64.ofNat n
  inFlight_eq : m'.inFlight = m.inFlight - n
  others : ∀ other, other ≠ name → m'.method other = m.method other

namespace Metrics.Failed

variable {n k : Nat} {name : String} {m m' m'' : Metrics}

theorem refl : Failed 0 name m m :=
  ⟨(UInt64.add_zero _).symm, (UInt64.add_zero _).symm, (UInt64.add_zero _).symm,
    (UInt64.add_zero _).symm, (Int.sub_zero _).symm, fun _ _ => rfl⟩

/-- A call that has failed once is in flight no longer. -/
theorem of_failedOnce (h : FailedOnce name m m') : Failed 1 name m m'.leave :=
  ⟨h.totalCalls_eq, h.totalErrors_eq, h.calls_eq, h.errors_eq,
    congrArg (· - 1) h.inFlight_eq, h.others⟩

/-- Calls that fail one after another add up. -/
theorem trans (h : Failed n name m m') (h' : Failed k name m' m'') : Failed (n + k) name m m'' := by
  have hadd : ∀ a b c : UInt64, b = a + UInt64.ofNat n → c = b + UInt64.ofNat k →
      c = a + UInt64.ofNat (n + k) := by
    intro a b c hb hc
    rw [hc, hb, UInt64.add_assoc, UInt64.ofNat_add]
  refine ⟨hadd _ _ _ h.totalCalls_eq h'.totalCalls_eq, hadd _ _ _ h.totalErrors_eq h'.totalErrors_eq,
    hadd _ _ _ h.calls_eq h'.calls_eq, hadd _ _ _ h.errors_eq h'.errors_eq, ?_, ?_⟩
  · have hfirst := h.inFlight_eq
    have hsecond := h'.inFlight_eq
    omega
  · intro other hother
    rw [h'.others other hother, h.others other hother]

end Metrics.Failed

end UserDirectory.Telemetry
