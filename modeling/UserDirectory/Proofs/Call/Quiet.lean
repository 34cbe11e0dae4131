import UserDirectory.Proofs.Call.Nesting
/-!
# Programs that only ask

Most of what handlers do is to ask the store and the clock and to write lines.  A program that does
nothing else takes a bounded number of steps, sends nothing, and begins no pass through the chain.

Main statements:
  * `Program.quiet_bind`, `Action.quiet_bind`: programs one after another;
  * `Program.Quiet.nested`: whoever only asks begins no pass.
-/

namespace UserDirectory.Call

open UserDirectory.Service (ServiceError)
open UserDirectory.Store (Operation)
open UserDirectory.Telemetry (Note)
open UserDirectory.Time (Instant)

variable {ο α β : Type}

/-! ## §1. Programs. -/

/-- A program that asks the store, reads the clock and writes lines so many times at most, none of the
lines about a pass through the chain, and does nothing else. -/
def Program.Quiet : Program ο α → Nat → Prop
  | .done _, _ => True
  | .store _ next, n => ∃ m, n = m + 1 ∧ ∀ r, (next r).Quiet m
  | .clock next, n => ∃ m, n = m + 1 ∧ ∀ now, (next now).Quiet m
  | .note line next, n => ∃ m, n = m + 1 ∧ line.isOfPass = false ∧ next.Quiet m
  | .send .., _ => False
  | .live _, _ => False
  | .pause .., _ => False
  | .cancel _, _ => False
  | .claims _, _ => False
  | .enter _, _ => False
  | .leave .., _ => False

theorem Program.Quiet.mono {p : Program ο α} {n m : Nat} (h : p.Quiet n) (hle : n ≤ m) :
    p.Quiet m := by
  induction p generalizing n m with
  | done a => exact trivial
  | store op next ih =>
    obtain ⟨k, rfl, hnext⟩ := h
    exact ⟨m - 1, by omega, fun r => ih r (hnext r) (by omega)⟩
  | clock next ih =>
    obtain ⟨k, rfl, hnext⟩ := h
    exact ⟨m - 1, by omega, fun now => ih now (hnext now) (by omega)⟩
  | note line next ih =>
    obtain ⟨k, rfl, hline, hnext⟩ := h
    exact ⟨m - 1, by omega, hline, ih hnext (by omega)⟩
  | _ => exact h.elim

/-- Of two programs one after another, each asks as often as it does by itself. -/
theorem Program.quiet_bind {p : Program ο β} {f : β → Program ο α} {n m : Nat} (hp : p.Quiet n)
    (hf : ∀ b, (f b).Quiet m) : (p.bind f).Quiet (n + m) := by
  induction p generalizing n with
  | done b => exact (hf b).mono (Nat.le_add_left m n)
  | store op next ih =>
    obtain ⟨k, rfl, hnext⟩ := hp
    exact ⟨k + m, by omega, fun r => ih r (hnext r)⟩
  | clock next ih =>
    obtain ⟨k, rfl, hnext⟩ := hp
    exact ⟨k + m, by omega, fun now => ih now (hnext now)⟩
  | note line next ih =>
    obtain ⟨k, rfl, hline, hnext⟩ := hp
    exact ⟨k + m, by omega, hline, ih hnext⟩
  | _ => exact hp.elim

/-- Whoever only asks begins no pass. -/
theorem Program.Quiet.nested {p : Program ο α} {n : Nat} (h : p.Quiet n) : p.Nested 0 := by
  induction p generalizing n with
  | done a => exact rfl
  | store op next ih =>
    obtain ⟨m, rfl, hnext⟩ := h
    exact fun r => ih r (hnext r)
  | clock next ih =>
    obtain ⟨m, rfl, hnext⟩ := h
    exact fun now => ih now (hnext now)
  | note line next ih =>
    obtain ⟨m, rfl, hline, hnext⟩ := h
    exact ⟨hline, ih hnext⟩
  | _ => exact h.elim

/-! ## §2. Actions. -/

namespace Action

/-- An action that only asks. -/
def Quiet (a : Action ο α) (n : Nat) : Prop := a.program.Quiet n

section

variable {n m : Nat}

theorem Quiet.mono {a : Action ο α} (h : a.Quiet n) (hle : n ≤ m) : a.Quiet m :=
  Program.Quiet.mono h hle

theorem quiet_pure (a : α) : Quiet (pure a : Action ο α) n := trivial

theorem quiet_throw (e : ServiceError) : Quiet (throw e : Action ο α) n := trivial

theorem quiet_bind {a : Action ο β} {f : β → Action ο α} (ha : a.Quiet n)
    (hf : ∀ b, (f b).Quiet m) : Quiet (a >>= f) (n + m) :=
  Program.quiet_bind ha fun r => by
    cases r with
    | ok b => exact hf b
    | error e => exact trivial

theorem quiet_outcome {a : Action ο α} (ha : a.Quiet n) : a.outcome.Quiet n :=
  Program.quiet_bind (m := 0) ha fun _ => trivial

theorem quiet_attempt (op : Operation) : Quiet (attempt op : Action ο op.Outcome) 1 :=
  ⟨0, rfl, fun _ => trivial⟩

theorem quiet_store (op : Operation) : Quiet (store op : Action ο op.Reply) 1 := by
  unfold store
  refine quiet_bind (m := 0) (quiet_attempt op) fun r => ?_
  cases r with
  | ok r => exact quiet_pure r
  | error e => exact quiet_throw _

theorem quiet_note {line : Note} (h : line.isOfPass = false) :
    Quiet (note line : Action ο Unit) 1 := ⟨0, rfl, h, trivial⟩

theorem quiet_clock : Quiet (clock : Action ο Instant) 1 := ⟨0, rfl, fun _ => trivial⟩

theorem quiet_ite {c : Prop} [Decidable c] {a b : Action ο α} (ha : a.Quiet n) (hb : b.Quiet n) :
    Quiet (if c then a else b) n := by
  split
  · exact ha
  · exact hb

/-- Something is done first on a condition. -/
theorem quiet_when {c : Prop} [Decidable c] {a : Action ο PUnit} {rest : PUnit → Action ο α}
    (ha : a.Quiet n) (hrest : ∀ u, (rest u).Quiet m) :
    Quiet (if c then a >>= rest else rest ⟨⟩) (n + m) :=
  quiet_ite (quiet_bind ha hrest) ((hrest _).mono (Nat.le_add_left m n))

end

end Action

end UserDirectory.Call
