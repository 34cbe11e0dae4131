import Mathlib.Algebra.GroupWithZero.Nat
import UserDirectory.Proofs.SortedMap
import UserDirectory.Proofs.Telemetry.Metrics
/-!
# What the counters come to

The counters are the numbers of the passes that have been recorded since they were last put back, in all
and for each method, as far as a counter goes before it goes round.

Main statements:
  * `Metrics.Tallies.record`, `Metrics.tallies_reset`: what each change of the counters keeps.
-/

namespace UserDirectory.Telemetry

open UserDirectory.Time (Duration)

/-- A pass as it is recorded: of which method, and whether as an error. -/
structure Recorded where
  method : String
  failed : Bool

/-- The counters of all methods together, as far as a counter goes. -/
def Metrics.total (m : Metrics) (counter : MethodCounters → UInt64) : UInt64 :=
  UInt64.ofNat (m.methods.entries.map fun e => (counter e.2).toNat).sum

/-- The counters are the numbers of some passes. -/
structure Metrics.Tallies (m : Metrics) (passes : List Recorded) : Prop where
  totalCalls : m.totalCalls = UInt64.ofNat passes.length
  totalErrors : m.totalErrors = UInt64.ofNat (passes.countP (·.failed))
  calls : ∀ name, (m.method name).calls = UInt64.ofNat (passes.countP (·.method = name))
  errors : ∀ name, (m.method name).errors =
    UInt64.ofNat (passes.countP fun r => r.method = name && r.failed)
  total_calls : m.total (·.calls) = m.totalCalls
  total_errors : m.total (·.errors) = m.totalErrors

namespace Metrics

/-- The sum over all methods is that over one of them and the others. -/
theorem sum_entries (m : Metrics) (name : String) (counter : MethodCounters → UInt64)
    (hzero : counter .zero = 0) :
    (m.methods.entries.map fun e => (counter e.2).toNat).sum
      = (counter (m.method name)).toNat
        + ((m.methods.erase name).entries.map fun e => (counter e.2).toNat).sum := by
  unfold method
  cases h : m.methods.get? name with
  | none =>
    rw [SortedMap.erase_of_get?_eq_none h, Option.getD_none, hzero]
    exact (Nat.zero_add _).symm
  | some c => exact ((SortedMap.entries_perm_of_get? h).map _).sum_nat

/-- What one pass adds to the counter of its method it adds to the sum. -/
theorem total_record (m : Metrics) (name : String) (took : Duration) (failed : Bool)
    (counter : MethodCounters → UInt64) (hzero : counter .zero = 0) (added : UInt64)
    (hadded : counter ((m.method name).record (microsOf took) failed)
      = counter (m.method name) + added) :
    (m.record name took failed).total counter = m.total counter + added := by
  have hinsert := ((SortedMap.insert_entries_perm m.methods name
    ((m.method name).record (microsOf took) failed)).map fun e => (counter e.2).toNat).sum_nat
  unfold total
  rw [sum_entries m name counter hzero]
  refine (congrArg UInt64.ofNat hinsert).trans ?_
  rw [List.map_cons, List.sum_cons, hadded, UInt64.ofNat_add, UInt64.ofNat_add, UInt64.ofNat_toNat,
    UInt64.ofNat_toNat]
  ac_rfl

/-- Before the first call, and after the counters have been put back. -/
theorem tallies_of_empty {m : Metrics} (hcalls : m.totalCalls = 0) (herrors : m.totalErrors = 0)
    (hmethods : m.methods = .empty) : m.Tallies [] := by
  refine ⟨hcalls, herrors, fun name => ?_, fun name => ?_, ?_, ?_⟩
  · unfold method
    rw [hmethods]
    rfl
  · unfold method
    rw [hmethods]
    rfl
  · rw [hcalls, total, hmethods]
    rfl
  · rw [herrors, total, hmethods]
    rfl

theorem tallies_zero : zero.Tallies [] := tallies_of_empty rfl rfl rfl

theorem tallies_reset (m : Metrics) : m.reset.Tallies [] := tallies_of_empty rfl rfl rfl

variable {m : Metrics} {passes : List Recorded}

/-- The gauge is no counter. -/
theorem Tallies.of_eq {m' : Metrics} (h : m.Tallies passes) (hcalls : m'.totalCalls = m.totalCalls)
    (herrors : m'.totalErrors = m.totalErrors) (hmethods : m'.methods = m.methods) :
    m'.Tallies passes := by
  obtain ⟨totalCalls, totalErrors, inFlight, methods⟩ := m
  obtain ⟨totalCalls', totalErrors', inFlight', methods'⟩ := m'
  cases hcalls
  cases herrors
  cases hmethods
  exact ⟨h.totalCalls, h.totalErrors, h.calls, h.errors, h.total_calls, h.total_errors⟩

/-- A counter of one kind of passes after one pass more. -/
theorem ofNat_countP_concat (kind : Recorded → Bool) (passes : List Recorded) (r : Recorded) :
    UInt64.ofNat ((passes ++ [r]).countP kind)
      = UInt64.ofNat (passes.countP kind) + if kind r then 1 else 0 := by
  rw [List.countP_append, List.countP_singleton, UInt64.ofNat_add]
  split <;> rfl

/-- One pass more is recorded. -/
theorem Tallies.record (h : m.Tallies passes) (name : String) (took : Duration) (failed : Bool) :
    (m.record name took failed).Tallies (passes ++ [⟨name, failed⟩]) where
  totalCalls := by
    rw [List.length_append, UInt64.ofNat_add, ← h.totalCalls]
    rfl
  totalErrors := by
    rw [ofNat_countP_concat, ← h.totalErrors]
    rfl
  calls other := by
    rw [ofNat_countP_concat, ← h.calls other, method_record]
    by_cases hname : other = name
    · subst hname
      simp [MethodCounters.record]
    · simp [hname, Ne.symm hname]
  errors other := by
    rw [ofNat_countP_concat, ← h.errors other, method_record]
    by_cases hname : other = name
    · subst hname
      simp [MethodCounters.record, MethodCounters.errorCount]
    · simp [hname, Ne.symm hname]
  total_calls := by
    rw [total_record m name took failed (·.calls) rfl 1 rfl, h.total_calls]
    rfl
  total_errors := by
    rw [total_record m name took failed (·.errors) rfl (MethodCounters.errorCount failed) rfl,
      h.total_errors]
    rfl

end Metrics

end UserDirectory.Telemetry
