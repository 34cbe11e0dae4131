import UserDirectory.Proofs.Call.Unheeded
import UserDirectory.Proofs.Errors
/-!
# The gate

A call is let through if its caller is known and may call the method; what the gate says depends on the
metadata, the second on the wall and the full name of the method, and on nothing else of the call.

Main statements:
  * `Gate.judge_error_kind`: whoever is not let through is told one of two things;
  * `CallState.enter_of_refused`, `CallState.enter_of_admitted`: what the chain does with a call.
-/

namespace UserDirectory.Access

/-! ## §1. Callers who are not known. -/

/-- An error that does not blame the server. -/
def NotInternal (e : AuthError) : Prop := ∀ reason, e ≠ .internal reason

theorem bearerToken_errors (metadata : Option Call.Metadata) :
    ErrorsAre NotInternal (bearerToken metadata) := by
  rintro _ h reason rfl
  unfold bearerToken at h
  repeat' split at h
  all_goals cases h

theorem verified_errors (a : Authority) (token : List Char) :
    ErrorsAre NotInternal (a.verified token) := by
  rintro _ h reason rfl
  unfold Authority.verified at h
  repeat' split at h
  all_goals cases h

theorem checkTimes_errors (claims : Claims) (now : Int64) :
    ErrorsAre NotInternal (Authority.checkTimes claims now) := by
  rintro _ h reason rfl
  unfold Authority.checkTimes at h
  repeat' split at h
  all_goals cases h

theorem checkSource_errors (a : Authority) (claims : Claims) (meant : Bool) :
    ErrorsAre NotInternal (a.checkSource claims meant) := by
  rintro _ h reason rfl
  unfold Authority.checkSource at h
  split at h <;> cases h

/-- A caller who is not known is at fault, and nothing else is. -/
theorem authenticate_errors (a : Authority) (metadata : Option Call.Metadata) (now : Int64) :
    ErrorsAre NotInternal (a.authenticate metadata now) := by
  refine (bearerToken_errors metadata).bind fun token => ?_
  refine (verified_errors a token).bind fun found => ?_
  refine (checkTimes_errors found.1 now).bind fun _ => ?_
  refine (checkSource_errors a found.1 found.2).bind fun _ => ?_
  exact errorsAre_ok _

end UserDirectory.Access

namespace UserDirectory.Call

open UserDirectory.Access (Claims)
open UserDirectory.Service (ServiceError)
open UserDirectory.Telemetry (Note)
open UserDirectory.Time (Duration)

/-! ## §2. What the gate says. -/

/-- What the gate says about a call of a method: the claims of its caller, or why not. -/
def Gate.judge (g : Gate) (metadata : Option Metadata) (second : Int64) (method : String) :
    Except ServiceError Claims :=
  match g.authority.authenticate metadata second with
  | .error e => .error (.unauthenticated e)
  | .ok claims =>
    match g.policy.approve method claims with
    | .error e => .error (.permissionDenied e)
    | .ok () => .ok claims

/-- Whoever is not known is told so. -/
theorem Gate.judge_of_unknown {g : Gate} {metadata : Option Metadata} {second : Int64} {method : String}
    {e : Access.AuthError} (h : g.authority.authenticate metadata second = .error e) :
    g.judge metadata second method = .error (.unauthenticated e) := by
  unfold judge
  rw [h]

/-- Whoever is not let through is not known or may not. -/
theorem Gate.judge_error_kind {g : Gate} {metadata : Option Metadata} {second : Int64}
    {method : String} {e : ServiceError} (h : g.judge metadata second method = .error e) :
    e.kind = .unauthenticated ∨ e.kind = .permissionDenied := by
  have hknown := Access.authenticate_errors g.authority metadata second
  unfold judge at h
  cases hauth : g.authority.authenticate metadata second with
  | error cause =>
    rw [hauth] at h
    cases h
    cases cause with
    | internal reason => exact absurd rfl (hknown _ hauth reason)
    | _ => exact .inl rfl
  | ok claims =>
    rw [hauth] at h
    simp only at h
    split at h
    · cases h
      exact .inr rfl
    · cases h

/-- Whoever is let through is known and may. -/
theorem Gate.judge_eq_ok_iff {g : Gate} {metadata : Option Metadata} {second : Int64}
    {method : String} {claims : Claims} :
    g.judge metadata second method = .ok claims
      ↔ g.authority.authenticate metadata second = .ok claims
        ∧ g.policy.approve method claims = .ok () := by
  unfold judge
  cases g.authority.authenticate metadata second with
  | error cause =>
    constructor
    · intro h
      cases h
    · rintro ⟨h, _⟩
      cases h
  | ok found =>
    simp only
    cases happrove : g.policy.approve method found with
    | error cause =>
      constructor
      · intro h
        cases h
      · rintro ⟨h, h'⟩
        cases h
        rw [happrove] at h'
        cases h'
    | ok _ =>
      constructor
      · intro h
        cases h
        exact ⟨rfl, happrove⟩
      · rintro ⟨h, _⟩
        cases h
        rfl

/-! ## §3. The way through the chain. -/

namespace CallState

variable {ο : Type} {g : Gate} {w : World} {s : CallState ο}

/-- What the gate says is done, and noted. -/
theorem letThrough_eq (hg : w.gate = some g) (hclaims : s.claims = none) :
    ∃ notes, s.letThrough w =
      match g.judge s.context.metadata w.second s.context.method with
      | .error e => (some e, s.write w notes, s)
      | .ok claims => (none, s.write w notes, { s with claims := some claims }) := by
  unfold letThrough Gate.judge
  rw [hg]
  simp only
  cases g.authority.authenticate s.context.metadata w.second with
  | error e => exact ⟨_, rfl⟩
  | ok claims =>
    unfold decide
    cases happrove : g.policy.approve s.context.method claims with
    | error e =>
      simp only [happrove]
      exact ⟨_, rfl⟩
    | ok _ =>
      simp only [happrove, hclaims]
      exact ⟨_, rfl⟩

/-- A call that is not let through leaves everything as it was, and is counted as one that failed. -/
theorem enter_of_refused {e : ServiceError} (hg : w.gate = some g) (hclaims : s.claims = none)
    (hpasses : s.passes = [])
    (h : g.judge s.context.metadata w.second s.context.method = .error e) :
    ∃ w', s.enter w = (some e, w', s) ∧ World.Alike (some g) w w'
      ∧ w'.metrics = w.metrics.record s.context.method (Duration.ofMillis 0) true := by
  obtain ⟨context, deadline, tie, cancelled, claims, passes, hold, outbound⟩ := s
  cases hclaims
  cases hpasses
  obtain ⟨notes, hthrough⟩ := letThrough_eq
    (s := (⟨context, deadline, tie, cancelled, none, [w.clock], hold, outbound⟩ : CallState ο))
    (w := (begin ⟨context, deadline, tie, cancelled, none, [], hold, outbound⟩ w).1) hg rfl
  have hjudge : g.judge context.metadata
      (begin ⟨context, deadline, tie, cancelled, none, [], hold, outbound⟩ w).1.second context.method
        = .error e := h
  simp only [hjudge] at hthrough
  have hbegin : begin ⟨context, deadline, tie, cancelled, none, [], hold, outbound⟩ w
      = ((begin ⟨context, deadline, tie, cancelled, none, [], hold, outbound⟩ w).1,
        (⟨context, deadline, tie, cancelled, none, [w.clock], hold, outbound⟩ : CallState ο)) := rfl
  unfold enter
  rw [hbegin]
  simp only
  rw [hthrough]
  refine ⟨_, rfl, ⟨hg, _, _, rfl⟩, ?_⟩
  show (((w.metrics.enter).record context.method (Duration.ofMillis (w.clock - w.clock)) true).leave)
    = _
  rw [Nat.sub_self]
  unfold Telemetry.Metrics.leave Telemetry.Metrics.record Telemetry.Metrics.enter
  simp only [Int.add_sub_cancel]
  rfl

/-- A call that is let through has the claims of its caller, and nothing else has happened. -/
theorem enter_of_admitted {claims : Claims} (hg : w.gate = some g) (hclaims : s.claims = none)
    (h : g.judge s.context.metadata w.second s.context.method = .ok claims) :
    ∃ w', s.enter w
        = (none, w', { s with claims := some claims, passes := w.clock :: s.passes })
      ∧ World.Alike (some g) w w' := by
  obtain ⟨notes, hthrough⟩ := letThrough_eq (s := { s with passes := w.clock :: s.passes })
    (w := (s.begin w).1) hg hclaims
  have hjudge : g.judge s.context.metadata (s.begin w).1.second s.context.method = .ok claims := h
  simp only [hjudge] at hthrough
  have hbegin : s.begin w = ((s.begin w).1, { s with passes := w.clock :: s.passes }) := rfl
  unfold enter
  rw [hbegin]
  simp only
  rw [hthrough]
  exact ⟨_, rfl, hg, _, _, rfl⟩

end CallState

end UserDirectory.Call
