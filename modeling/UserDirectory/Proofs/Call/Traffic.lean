import Mathlib.Algebra.BigOperators.Group.Finset.Piecewise
import UserDirectory.Proofs.Call.Nesting
import UserDirectory.Proofs.Telemetry.Tally
/-!
# Calls that share the metrics

Any number of calls share the metrics and the log, and a step of the whole is a step of one of them; so
anything can come between any two deeds of a call, and at any time the counters may be put back.

Main statements:
  * `Traffic.Step.accounted`: what a step keeps of the accounts;
  * `Traffic.Runs.accounted`: the accounts are right at every time.
-/

namespace UserDirectory.Call

open UserDirectory.Telemetry (Metrics Note Recorded)

/-! ## §1. Calls that go on at the same time. -/

/-- A call of a method, of whatever kind. -/
structure Member : Type 1 where
  {ι ο σ α : Type}
  method : String
  life : Life ι ο σ α

/-- What can be told of calls that share the metrics. -/
inductive Happening
  /-- a call, known by its place, does a deed -/
  | deed (caller : Nat) (method : String) (d : Deed)
  | reset

/-- The metrics, the lines about passes, and the calls that share them, in the order in which they were
made. -/
structure Traffic : Type 1 where
  metrics : Metrics
  notes : List Note
  calls : List Member

namespace Traffic

/-- Before the first call. -/
def empty : Traffic := ⟨.zero, [], []⟩

/-- After a call has done some deeds, and has come as far as this. -/
def after (x : Traffic) (i : Nat) (deeds : List Deed) (m : Member) : Traffic where
  metrics := deeds.foldl (Deed.count m.method) x.metrics
  notes := x.notes ++ deeds.filterMap Deed.told
  calls := x.calls.set i m

/-- One step of the whole, and what can be told of it. -/
inductive Step (x : Traffic) : Option Happening → Traffic → Prop
  /-- another call is made, with whatever handler that ends what it begins -/
  | make {ι ο σ α : Type} (method : String) (h : Handler ι ο σ α) (hproper : h.Proper)
      (served : Bool) (inbound : Inbound ι) (outbound : Outbound ο) :
      Step x none { x with calls := x.calls ++ [⟨method, .start h served inbound outbound⟩] }
  /-- one of the calls does a step -/
  | go {ι ο σ α : Type} {i : Nat} {method : String} {l l' : Life ι ο σ α} {label : Option Deed}
      (hi : x.calls[i]? = some ⟨method, l⟩) (h : l.Step label l') :
      Step x (label.map (.deed i method)) (x.after i label.toList ⟨method, l'⟩)
  | reset : Step x (some .reset) { x with metrics := x.metrics.reset }

/-- Any number of steps, and what can be told of them. -/
inductive Runs (x : Traffic) : List Happening → Traffic → Prop
  | refl : Runs x [] x
  | step {trace : List Happening} {x' x'' : Traffic} {happening : Option Happening}
      (h : Runs x trace x') (hs : x'.Step happening x'') : Runs x (trace ++ happening.toList) x''

theorem Runs.trans {x x' x'' : Traffic} {trace trace' : List Happening} (h : x.Runs trace x')
    (h' : x'.Runs trace' x'') : x.Runs (trace ++ trace') x'' := by
  induction h' with
  | refl => rwa [List.append_nil]
  | step _ hstep ih =>
    rw [← List.append_assoc]
    exact .step ih hstep

/-- What one call does by itself, the others doing nothing meanwhile. -/
theorem runs_of_life {ι ο σ α : Type} {x : Traffic} {i : Nat} {method : String}
    {l l' : Life ι ο σ α} {deeds : List Deed} (h : l.Runs deeds l')
    (hi : x.calls[i]? = some ⟨method, l⟩) :
    x.Runs (deeds.map (.deed i method)) (x.after i deeds ⟨method, l'⟩) := by
  induction h generalizing x with
  | refl =>
    obtain ⟨hlt, hget⟩ := List.getElem?_eq_some_iff.1 hi
    have hsame : x.after i [] x.calls[i] = x := by
      unfold after
      rw [List.set_getElem_self]
      simp
    rw [hget] at hsame
    rw [hsame]
    exact .refl
  | @step _ l₁ l₂ label deeds hstep _ ih =>
    obtain ⟨hlt, _⟩ := List.getElem?_eq_some_iff.1 hi
    have hmore := ih (x := x.after i label.toList ⟨method, l₁⟩) (List.getElem?_set_self hlt)
    have hall := (Runs.refl.step (.go hi hstep)).trans hmore
    have hafter : (x.after i label.toList ⟨method, l₁⟩).after i deeds ⟨method, l₂⟩
        = x.after i (label.toList ++ deeds) ⟨method, l₂⟩ := by
      unfold after
      rw [List.foldl_append, List.filterMap_append, List.set_set, List.append_assoc]
    rw [hafter] at hall
    cases label with
    | none => exact hall
    | some d => exact hall

end Traffic

/-! ## §2. Accounts. -/

namespace Happening

/-- What a call has done by it, if it is a deed of that call. -/
def deedOf (i : Nat) : Happening → Option Deed
  | deed caller _ d => if caller = i then some d else none
  | reset => none

/-- The passes recorded since the counters were last put back, after one happening more. -/
def recordedAfter (passes : List Recorded) : Happening → List Recorded
  | deed _ method (.record _ failed) => passes ++ [⟨method, failed⟩]
  | deed .. => passes
  | reset => []

/-- The line about the beginning or end of a pass, if there is one. -/
def told : Happening → Option Note
  | deed _ _ d => d.told
  | reset => none

end Happening

/-- The deeds of one call among all that has happened. -/
def deedsOf (i : Nat) (trace : List Happening) : List Deed := trace.filterMap (Happening.deedOf i)

/-- The passes recorded since the counters were last put back. -/
def recordedSince (trace : List Happening) : List Recorded := trace.foldl Happening.recordedAfter []

/-- How many of the passes that a call has begun it has not ended. -/
def unended (deeds : List Deed) : Nat := deeds.countP Deed.isEntry - deeds.countP Deed.isExit

/-- The accounts of some calls are right after all that has happened. -/
structure Traffic.Accounted (x : Traffic) (trace : List Happening) : Prop where
  /-- the gauge shows how many passes have begun and not ended -/
  inFlight : x.metrics.inFlight
    = ∑ i ∈ Finset.range x.calls.length, (unended (deedsOf i trace) : Int)
  /-- the counters show how many have been recorded since they were last put back -/
  tallies : x.metrics.Tallies (recordedSince trace)
  /-- the log has the lines that have been written, and no others -/
  notes : x.notes = trace.filterMap Happening.told
  /-- the books of every call are in order -/
  booked : ∀ (i : Nat) (m : Member), x.calls[i]? = some m → m.life.Booked (deedsOf i trace)
  /-- every handler ends what it begins -/
  proper : ∀ (i : Nat) (m : Member), x.calls[i]? = some m → m.life.handler.Proper
  /-- no deed is that of nobody -/
  nobody : ∀ i, x.calls.length ≤ i → deedsOf i trace = []

theorem deedsOf_concat_deed (i caller : Nat) (trace : List Happening) (method : String) (d : Deed) :
    deedsOf i (trace ++ [.deed caller method d])
      = deedsOf i trace ++ if caller = i then [d] else [] := by
  unfold deedsOf
  rw [List.filterMap_append]
  by_cases h : caller = i <;> simp [Happening.deedOf, h]

theorem deedsOf_concat_reset (i : Nat) (trace : List Happening) :
    deedsOf i (trace ++ [.reset]) = deedsOf i trace := by
  unfold deedsOf
  rw [List.filterMap_append]
  exact List.append_nil _

theorem recordedSince_concat (trace : List Happening) (h : Happening) :
    recordedSince (trace ++ [h]) = h.recordedAfter (recordedSince trace) := by
  unfold recordedSince
  rw [List.foldl_append]
  rfl

/-- What a deed adds to the number of passes that have begun and not ended. -/
def Deed.weight (d : Deed) : Int := (if d.isEntry then 1 else 0) - if d.isExit then 1 else 0

theorem Deed.inFlight_count (d : Deed) (method : String) (m : Metrics) :
    (d.count method m).inFlight = m.inFlight + d.weight := by
  cases d with
  | enter => rfl
  | leave => rfl
  | _ => exact (Int.add_zero _).symm

/-- Where no more have ended than have begun, before a deed and after it. -/
theorem unended_concat {deeds : List Deed} {d : Deed}
    (h : deeds.countP Deed.isExit ≤ deeds.countP Deed.isEntry)
    (hd : (deeds ++ [d]).countP Deed.isExit ≤ (deeds ++ [d]).countP Deed.isEntry) :
    (unended (deeds ++ [d]) : Int) = unended deeds + d.weight := by
  unfold unended Deed.weight
  rw [List.countP_append, List.countP_append, List.countP_singleton, List.countP_singleton] at hd ⊢
  split <;> split <;> simp_all <;> omega

/-- The counters after a deed. -/
theorem Deed.tallies_count {m : Metrics} {passes : List Recorded} (h : m.Tallies passes)
    (caller : Nat) (method : String) (d : Deed) :
    (d.count method m).Tallies (Happening.recordedAfter passes (.deed caller method d)) := by
  cases d with
  | record millis failed => exact h.record method _ failed
  | enter => exact h.of_eq rfl rfl rfl
  | leave => exact h.of_eq rfl rfl rfl
  | _ => exact h

/-! ## §3. The accounts are right. -/

namespace Traffic

variable {x x' : Traffic} {trace : List Happening}

/-- Another call has done nothing yet. -/
theorem Accounted.make (h : x.Accounted trace) {ι ο σ α : Type} (method : String)
    {handler : Handler ι ο σ α} (hproper : handler.Proper) (served : Bool) (inbound : Inbound ι)
    (outbound : Outbound ο) :
    Accounted { x with calls := x.calls ++ [⟨method, .start handler served inbound outbound⟩] }
      trace := by
  have hnew : ∀ (i : Nat) (m : Member),
      (x.calls ++ [⟨method, .start handler served inbound outbound⟩])[i]? = some m →
      x.calls[i]? = some m
      ∨ (i = x.calls.length ∧ m = ⟨method, .start handler served inbound outbound⟩) := by
    intro i m hi
    by_cases hlt : i < x.calls.length
    · rw [List.getElem?_append_left hlt] at hi
      exact .inl hi
    · rw [List.getElem?_append_right (by omega), List.getElem?_singleton] at hi
      split at hi
      · cases hi
        exact .inr ⟨by omega, rfl⟩
      · cases hi
  refine ⟨?_, h.tallies, h.notes, fun i m hi => ?_, fun i m hi => ?_, fun i hi => ?_⟩
  · show x.metrics.inFlight = _
    rw [List.length_append, List.length_singleton, Finset.sum_range_succ,
      h.nobody x.calls.length (Nat.le_refl _), h.inFlight]
    exact (Int.add_zero _).symm
  · rcases hnew i m hi with hold | ⟨rfl, rfl⟩
    · exact h.booked i m hold
    · rw [h.nobody x.calls.length (Nat.le_refl _)]
      exact ⟨rfl, rfl⟩
  · rcases hnew i m hi with hold | ⟨rfl, rfl⟩
    · exact h.proper i m hold
    · exact hproper
  · refine h.nobody i ?_
    rw [List.length_append] at hi
    omega

/-- A call does a step. -/
theorem Accounted.go (h : x.Accounted trace) {ι ο σ α : Type} {i : Nat} {method : String}
    {l l' : Life ι ο σ α} {label : Option Deed} (hi : x.calls[i]? = some ⟨method, l⟩)
    (hstep : l.Step label l') :
    (x.after i label.toList ⟨method, l'⟩).Accounted
      (trace ++ (label.map (Happening.deed i method)).toList) := by
  obtain ⟨hlt, _⟩ := List.getElem?_eq_some_iff.1 hi
  have hproper := h.proper i _ hi
  have hbooked := h.booked i _ hi
  have hbooked' := hstep.booked hproper hbooked
  have hdeeds : ∀ j, deedsOf j (trace ++ (label.map (Happening.deed i method)).toList)
      = deedsOf j trace ++ if i = j then label.toList else [] := by
    intro j
    cases label with
    | none => split <;> simp
    | some d => exact deedsOf_concat_deed j i trace method d
  have hother : ∀ (j : Nat) (m : Member), (x.calls.set i ⟨method, l'⟩)[j]? = some m →
      (i = j ∧ m = ⟨method, l'⟩) ∨ (i ≠ j ∧ x.calls[j]? = some m) := by
    intro j m hj
    by_cases hij : i = j
    · subst hij
      rw [List.getElem?_set_self hlt] at hj
      exact .inl ⟨rfl, (Option.some.inj hj).symm⟩
    · rw [List.getElem?_set_ne hij] at hj
      exact .inr ⟨hij, hj⟩
  refine ⟨?_, ?_, ?_, fun j m hj => ?_, fun j m hj => ?_, fun j hj => ?_⟩
  · -- only what this call has begun and not ended can have changed
    show (label.toList.foldl (Deed.count method) x.metrics).inFlight
      = ∑ j ∈ Finset.range (x.calls.set i ⟨method, l'⟩).length, _
    rw [List.length_set]
    have hweight : ∀ j ∈ Finset.range x.calls.length,
        (unended (deedsOf j (trace ++ (label.map (Happening.deed i method)).toList)) : Int)
          = unended (deedsOf j trace) + if i = j then (label.map Deed.weight).getD 0 else 0 := by
      intro j _
      rw [hdeeds]
      by_cases hij : i = j
      · subst hij
        rw [if_pos rfl, if_pos rfl]
        cases label with
        | none =>
          show (unended (deedsOf i trace ++ []) : Int) = _
          rw [List.append_nil]
          exact (Int.add_zero _).symm
        | some d => exact unended_concat hbooked.countP_isExit_le hbooked'.countP_isExit_le
      · rw [if_neg hij, if_neg hij, List.append_nil, Int.add_zero]
    rw [Finset.sum_congr rfl hweight, Finset.sum_add_distrib, ← h.inFlight, Finset.sum_ite_eq,
      if_pos (Finset.mem_range.2 hlt)]
    cases label with
    | none => exact (Int.add_zero _).symm
    | some d => exact d.inFlight_count method x.metrics
  · cases label with
    | none =>
      show x.metrics.Tallies (recordedSince (trace ++ []))
      rw [List.append_nil]
      exact h.tallies
    | some d =>
      show (d.count method x.metrics).Tallies (recordedSince (trace ++ [.deed i method d]))
      rw [recordedSince_concat]
      exact Deed.tallies_count h.tallies i method d
  · show x.notes ++ label.toList.filterMap Deed.told = _
    rw [h.notes, List.filterMap_append]
    cases label <;> rfl
  · rw [hdeeds]
    rcases hother j m hj with ⟨rfl, rfl⟩ | ⟨hij, hold⟩
    · rw [if_pos rfl]
      exact hbooked'
    · rw [if_neg hij, List.append_nil]
      exact h.booked j m hold
  · rcases hother j m hj with ⟨rfl, rfl⟩ | ⟨_, hold⟩
    · show l'.handler.Proper
      rw [hstep.kin.handler]
      exact hproper
    · exact h.proper j m hold
  · have hj' : x.calls.length ≤ j := by
      unfold after at hj
      rwa [List.length_set] at hj
    rw [hdeeds, if_neg (by omega), List.append_nil]
    exact h.nobody j hj'

/-- The counters are put back, and the gauge is not. -/
theorem Accounted.reset (h : x.Accounted trace) :
    Accounted { x with metrics := x.metrics.reset } (trace ++ [.reset]) := by
  refine ⟨?_, ?_, ?_, fun i m hi => ?_, h.proper, fun i hi => ?_⟩
  · simp only [deedsOf_concat_reset]
    exact h.inFlight
  · rw [recordedSince_concat]
    exact Metrics.tallies_reset _
  · rw [List.filterMap_append]
    exact h.notes.trans (List.append_nil _).symm
  · rw [deedsOf_concat_reset]
    exact h.booked i m hi
  · rw [deedsOf_concat_reset]
    exact h.nobody i hi

/-- A step keeps the accounts right. -/
theorem Step.accounted {happening : Option Happening} (hstep : x.Step happening x')
    (h : x.Accounted trace) : x'.Accounted (trace ++ happening.toList) := by
  cases hstep with
  | make method handler hproper served inbound outbound =>
    rw [Option.toList_none, List.append_nil]
    exact h.make method hproper served inbound outbound
  | go hi hstep => exact h.go hi hstep
  | reset => exact h.reset

/-- Before the first call the accounts are right. -/
theorem accounted_empty : empty.Accounted [] where
  inFlight := rfl
  tallies := Metrics.tallies_zero
  notes := rfl
  booked _ _ hi := by cases hi
  proper _ _ hi := by cases hi
  nobody _ _ := rfl

/-- The accounts are right at every time. -/
theorem Runs.accounted (h : empty.Runs trace x) : x.Accounted trace := by
  induction h with
  | refl => exact accounted_empty
  | step _ hstep ih => exact hstep.accounted ih

end Traffic

end UserDirectory.Call
