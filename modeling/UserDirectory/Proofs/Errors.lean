/-!
# Results and errors

What is known of the result of two steps: it comes if both come, and if there is an error then it is one
of either step.

Main statements: `bind_eq_ok`, `ErrorsAre.bind`.
-/

namespace UserDirectory

variable {ε ε' α β : Type}

/-! ## §1. What has come. -/

/-- What comes of two steps comes of both. -/
theorem bind_eq_ok {x : Except ε α} {f : α → Except ε β} {b : β} :
    x >>= f = .ok b ↔ ∃ a, x = .ok a ∧ f a = .ok b := by
  cases x with
  | error e =>
    constructor
    · intro h
      cases h
    · rintro ⟨a, h, _⟩
      cases h
  | ok a =>
    constructor
    · exact fun h => ⟨a, rfl, h⟩
    · rintro ⟨_, ha, h⟩
      cases ha
      exact h

theorem map_eq_ok {x : Except ε α} {f : α → β} {b : β} :
    x.map f = .ok b ↔ ∃ a, x = .ok a ∧ f a = b := by
  cases x with
  | error e =>
    constructor
    · intro h
      cases h
    · rintro ⟨a, h, _⟩
      cases h
  | ok a =>
    constructor
    · exact fun h => ⟨a, rfl, Except.ok.inj h⟩
    · rintro ⟨_, ha, h⟩
      cases ha
      exact congrArg _ h

/-- To call an error by another name brings nothing about. -/
theorem mapError_eq_ok {x : Except ε α} {f : ε → ε'} {a : α} : x.mapError f = .ok a ↔ x = .ok a := by
  cases x with
  | error e => exact ⟨nofun, nofun⟩
  | ok b => exact ⟨fun h => congrArg _ (Except.ok.inj h), fun h => congrArg _ (Except.ok.inj h)⟩

/-! ## §2. Errors of a kind. -/

/-- If there is an error, then it is of a kind. -/
def ErrorsAre (P : ε → Prop) (x : Except ε α) : Prop := ∀ e, x = .error e → P e

section

variable {P : ε → Prop}

theorem errorsAre_ok (a : α) : ErrorsAre P (.ok a : Except ε α) := fun e h => by cases h

theorem errorsAre_error {e : ε} (h : P e) : ErrorsAre P (.error e : Except ε α) := fun e' h' => by
  cases h'
  exact h

theorem ErrorsAre.bind {x : Except ε α} {f : α → Except ε β} (hx : ErrorsAre P x)
    (hf : ∀ a, ErrorsAre P (f a)) : ErrorsAre P (x >>= f) := by
  cases x with
  | ok a => exact hf a
  | error e => exact errorsAre_error (hx e rfl)

theorem ErrorsAre.map {x : Except ε α} (hx : ErrorsAre P x) (f : α → β) :
    ErrorsAre P (x.map f) := by
  cases x with
  | ok a => exact errorsAre_ok (f a)
  | error e => exact errorsAre_error (hx e rfl)

end

end UserDirectory
