import UserDirectory.Proofs.Call.Persevering
import UserDirectory.Proofs.Call.Quiet
/-!
# Calls that take few steps

A program that takes so many steps at most, and counts none by which its call is cancelled, does not keep
its call from coming to its end.  So a calm call of a handler with such programs comes there, unless the
stream of requests stays open and silent.

Main statements:
  * `Program.brief_bind`, `Action.brief_bind`, `Action.Quiet.brief`: programs that are brief;
  * `Program.Brief.perseveres`, `Handler.Brief.perseveres`: and persevere;
  * `Alone.inevitably_ended`: a calm call of a brief handler comes to its end.
-/

namespace UserDirectory.Call

open UserDirectory.Store (Table)

variable {ι ο σ α β : Type} {n m : Nat}

/-! ## §1. Programs. -/

/-- A program that takes so many steps at most, of which sending a response counts twice, as the response
has to be read; it neither cancels its call nor goes through the chain once more. -/
def Program.Brief : Program ο α → Nat → Prop
  | .done _, _ => True
  | .store _ next, n => ∃ m, n = m + 1 ∧ ∀ r, (next r).Brief m
  | .send _ next, n => ∃ m, n = m + 2 ∧ ∀ there, (next there).Brief m
  | .live next, n => ∃ m, n = m + 1 ∧ ∀ alive, (next alive).Brief m
  | .clock next, n => ∃ m, n = m + 1 ∧ ∀ now, (next now).Brief m
  | .note _ next, n => ∃ m, n = m + 1 ∧ next.Brief m
  | .pause _ next, n => ∃ m, n = m + 1 ∧ next.Brief m
  | .claims next, n => ∃ m, n = m + 1 ∧ ∀ c, (next c).Brief m
  | .cancel _, _ => False
  | .enter _, _ => False
  | .leave .., _ => False

namespace Program

theorem Brief.mono {p : Program ο α} (h : p.Brief n) (hle : n ≤ m) : p.Brief m := by
  induction p generalizing n m with
  | done a => exact trivial
  | send item next ih =>
    obtain ⟨k, rfl, hnext⟩ := h
    exact ⟨m - 2, by omega, fun there => ih there (hnext there) (by omega)⟩
  | store op next ih
  | live next ih
  | clock next ih
  | claims next ih =>
    obtain ⟨k, rfl, hnext⟩ := h
    exact ⟨m - 1, by omega, fun r => ih r (hnext r) (by omega)⟩
  | note line next ih
  | pause ms next ih =>
    obtain ⟨k, rfl, hnext⟩ := h
    exact ⟨m - 1, by omega, ih hnext (by omega)⟩
  | _ => exact h.elim

/-- Of two programs one after another, each takes as many steps as it does by itself. -/
theorem brief_bind {p : Program ο β} {f : β → Program ο α} (hp : p.Brief n) (hf : ∀ b, (f b).Brief m) :
    (p.bind f).Brief (n + m) := by
  induction p generalizing n with
  | done b => exact (hf b).mono (Nat.le_add_left m n)
  | store op next ih
  | send item next ih
  | live next ih
  | clock next ih
  | claims next ih =>
    obtain ⟨k, rfl, hnext⟩ := hp
    exact ⟨k + m, by omega, fun r => ih r (hnext r)⟩
  | note line next ih
  | pause ms next ih =>
    obtain ⟨k, rfl, hnext⟩ := hp
    exact ⟨k + m, by omega, ih hnext⟩
  | _ => exact hp.elim

/-- Whoever only asks is brief. -/
theorem Quiet.brief {p : Program ο α} (h : p.Quiet n) : p.Brief n := by
  induction p generalizing n with
  | done a => exact trivial
  | store op next ih
  | clock next ih =>
    obtain ⟨k, rfl, hnext⟩ := h
    exact ⟨k, rfl, fun r => ih r (hnext r)⟩
  | note line next ih =>
    obtain ⟨k, rfl, _, hnext⟩ := h
    exact ⟨k, rfl, ih hnext⟩
  | _ => exact h.elim

/-- Whoever is brief does not cancel the call. -/
theorem Brief.perseveres {p : Program ο α} (h : p.Brief n) : p.Perseveres := by
  induction p generalizing n with
  | done a => exact trivial
  | store op next ih
  | send item next ih
  | live next ih
  | clock next ih
  | claims next ih =>
    obtain ⟨k, rfl, hnext⟩ := h
    exact fun r => ih r (hnext r)
  | note line next ih
  | pause ms next ih =>
    obtain ⟨k, rfl, hnext⟩ := h
    exact ih hnext
  | _ => exact h.elim

end Program

/-! ## §2. Actions. -/

namespace Action

/-- An action whose program is brief. -/
def Brief (a : Action ο α) (n : Nat) : Prop := a.program.Brief n

theorem Quiet.brief {a : Action ο α} (h : a.Quiet n) : a.Brief n := Program.Quiet.brief h

theorem brief_bind {a : Action ο β} {f : β → Action ο α} (ha : a.Brief n) (hf : ∀ b, (f b).Brief m) :
    Brief (a >>= f) (n + m) :=
  Program.brief_bind ha fun r => by
    cases r with
    | ok b => exact hf b
    | error e => exact trivial

theorem brief_ensureLive : Brief (ensureLive : Action ο Unit) 1 :=
  ⟨0, rfl, fun alive => by cases alive <;> exact trivial⟩

end Action

/-! ## §3. Handlers. -/

/-- What is done at a stage is brief. -/
def Stage.Brief : Stage ο σ α → Nat → Prop
  | .awaiting _, _ => True
  | .handling p, n => p.Brief n
  | .closing p, n => p.Brief n

/-- A handler all of whose programs are brief. -/
structure Handler.Brief (h : Handler ι ο σ α) (n : Nat) : Prop where
  onItem : ∀ kept x, (h.onItem kept x).Brief n
  onEnd : ∀ kept, (h.onEnd kept).Brief n
  start : h.start.Brief n

theorem Handler.brief_ofItems {s : σ} {onItem : σ → ι → Action ο σ} {onEnd : σ → Action ο α}
    (hitem : ∀ kept x, (onItem kept x).Brief n) (hend : ∀ kept, (onEnd kept).Brief n) :
    (Handler.ofItems s onItem onEnd).Brief n :=
  ⟨hitem, hend, trivial⟩

theorem Stage.Brief.perseveres {stage : Stage ο σ α} (h : stage.Brief n) : stage.Perseveres := by
  cases stage with
  | awaiting kept => exact trivial
  | handling p
  | closing p => exact Program.Brief.perseveres h

theorem Handler.Brief.perseveres {h : Handler ι ο σ α} (hbrief : h.Brief n) : h.Perseveres where
  onItem kept x := (hbrief.onItem kept x).perseveres
  onEnd kept := (hbrief.onEnd kept).perseveres
  start := hbrief.start.perseveres

/-- A calm call of a brief handler comes to its end, and has done there all that its handler does. -/
theorem Alone.inevitably_ended {handler : Handler ι ο σ α} (hbrief : handler.Brief n) (served : Bool)
    {inbound : Inbound ι} (hsettles : inbound.Settles) (capacity : Nat) (enough : Option Nat)
    (attentive : Bool) (t : Table) :
    (start handler served inbound (.ofCapacity capacity ⟨enough, attentive, [], none⟩) t).Inevitably
      fun s => ∃ r unsent, s.life.spot = .ended r unsent
        ∧ (handler.whole (inbound.arrivals.map (·.content))).Ends false t s.life.stance.accepted
            s.table r :=
  inevitably_ended_of_perseveres hbrief.perseveres served (fun _ => hsettles) capacity enough attentive t

end UserDirectory.Call
