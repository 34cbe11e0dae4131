import UserDirectory.SortedMap
import UserDirectory.Time.Duration
/-!
# Metrics of calls

Counters of the calls that have ended, in all and for each method, and a gauge of those that have
not.  Counters go round at 2^64.
-/

namespace UserDirectory.Telemetry

open UserDirectory.Time (Duration)

/-- The counters of one method. -/
structure MethodCounters where
  calls : UInt64
  errors : UInt64
  totalMicros : UInt64
  deriving DecidableEq

/-- The counters of one method and of all, and the gauge. -/
structure Metrics where
  totalCalls : UInt64
  totalErrors : UInt64
  /-- how many calls have begun and not ended -/
  inFlight : Int
  methods : SortedMap String MethodCounters
  deriving DecidableEq

namespace MethodCounters

/-- A method that has not been called. -/
def zero : MethodCounters := ⟨0, 0, 0⟩

/-- One if a call has failed. -/
def errorCount (failed : Bool) : UInt64 := if failed then 1 else 0

/-- Counts one call that has ended. -/
def record (c : MethodCounters) (micros : UInt64) (failed : Bool) : MethodCounters :=
  ⟨c.calls + 1, c.errors + errorCount failed, c.totalMicros + micros⟩

/-- The milliseconds that a call has taken on average. -/
def averageMillis (c : MethodCounters) : Float :=
  if c.calls = 0 then 0.0 else c.totalMicros.toFloat / c.calls.toFloat / 1000.0

end MethodCounters

namespace Metrics

/-- Before the first call. -/
def zero : Metrics := ⟨0, 0, 0, .empty⟩

instance : Inhabited Metrics := ⟨zero⟩

/-- The microseconds of a length of time, at most the greatest number that is counted. -/
def microsOf (d : Duration) : UInt64 := UInt64.ofNat (min d.wholeMicros (UInt64.size - 1))

/-- The counters of a method. -/
def method (m : Metrics) (name : String) : MethodCounters := (m.methods.get? name).getD .zero

/-- Counts one call that has ended. -/
def record (m : Metrics) (name : String) (took : Duration) (failed : Bool) : Metrics where
  totalCalls := m.totalCalls + 1
  totalErrors := m.totalErrors + MethodCounters.errorCount failed
  inFlight := m.inFlight
  methods := m.methods.insert name ((m.method name).record (microsOf took) failed)

/-- One more call has begun. -/
def enter (m : Metrics) : Metrics := { m with inFlight := m.inFlight + 1 }

/-- One call less has begun and not ended. -/
def leave (m : Metrics) : Metrics := { m with inFlight := m.inFlight - 1 }

/-- Forgets the calls that have ended. -/
def reset (m : Metrics) : Metrics := ⟨0, 0, m.inFlight, .empty⟩

/-- The percentage of calls that have failed. -/
def errorRate (m : Metrics) : Float :=
  if m.totalCalls = 0 then 0.0 else m.totalErrors.toFloat / m.totalCalls.toFloat * 100.0

end Metrics

end UserDirectory.Telemetry
