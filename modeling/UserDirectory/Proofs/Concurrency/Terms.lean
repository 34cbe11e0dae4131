import Mathlib.Logic.Function.Basic
import UserDirectory.Proofs.Concurrency.Interleaving
/-!
# The terms on which calls use a store

What a call may ask of the store, and what it can count on in the replies, may depend on what it has
done so far; that is kept in a memory beside the call.  A call abides by its terms if it asks for
nothing that is not allowed, whatever the outside answers within what is promised.

A program is followed backwards from what shall hold at its end, so that each action has one rule.

Main statements:
  * `Program.abides_bind`, and a rule for each action;
  * `Program.Abides.step`, `Course.Abides.step`: a step leads from terms to terms;
  * `System.Runs.keeps`: what every allowed operation keeps is kept by all calls together.
-/

namespace UserDirectory.Call

open UserDirectory.Service (ServiceError)
open UserDirectory.Store (Operation Table)
open UserDirectory.Telemetry (Note)
open UserDirectory.Time (Instant)

/-- What may be asked of a store and what is promised in return, by one who remembers a `σ`. -/
structure Terms (σ : Type) where
  allowed : σ → Operation → Prop
  promised : σ → (op : Operation) → op.Outcome → Prop
  after : σ → (op : Operation) → op.Outcome → σ

variable {σ ο α β : Type}

/-! ## §1. Programs. -/

/-- A program abides by its terms from a memory on, and then `Q` holds at its end. -/
def Program.Abides (T : Terms σ) : Program ο α → σ → (σ → α → Prop) → Prop
  | .done a, g, Q => Q g a
  | .store op next, g, Q =>
    T.allowed g op ∧ ∀ r, T.promised g op r → (next r).Abides T (T.after g op r) Q
  | .send _ next, g, Q => ∀ b, (next b).Abides T g Q
  | .live next, g, Q => ∀ b, (next b).Abides T g Q
  | .clock next, g, Q => ∀ now, (next now).Abides T g Q
  | .note _ next, g, Q => next.Abides T g Q
  | .pause _ next, g, Q => next.Abides T g Q
  | .cancel next, g, Q => next.Abides T g Q
  | .claims next, g, Q => ∀ c, (next c).Abides T g Q
  | .enter next, g, Q => ∀ r, (next r).Abides T g Q
  | .leave _ next, g, Q => next.Abides T g Q

namespace Program

variable {T : Terms σ} {Q R : σ → α → Prop} {g : σ}

/-- What holds at the end may be weakened. -/
theorem Abides.mono {p : Program ο α} (hQ : ∀ g a, Q g a → R g a) (h : p.Abides T g Q) :
    p.Abides T g R := by
  induction p generalizing g with
  | done a => exact hQ g a h
  | store op next ih => exact ⟨h.1, fun r hr => ih r (h.2 r hr)⟩
  | send item next ih => exact fun b => ih b (h b)
  | live next ih => exact fun b => ih b (h b)
  | clock next ih => exact fun now => ih now (h now)
  | note n next ih => exact ih h
  | pause ms next ih => exact ih h
  | cancel next ih => exact ih h
  | claims next ih => exact fun c => ih c (h c)
  | enter next ih => exact fun r => ih r (h r)
  | leave failure next ih => exact ih h

/-- Of two programs one after another, the second starts from what the first leaves. -/
theorem abides_bind {p : Program ο β} {f : β → Program ο α} :
    (p.bind f).Abides T g Q ↔ p.Abides T g fun g' b => (f b).Abides T g' Q := by
  induction p generalizing g with
  | done b => exact Iff.rfl
  | store op next ih =>
    exact and_congr_right fun _ => forall_congr' fun r => imp_congr_right fun _ => ih r
  | send item next ih => exact forall_congr' fun b => ih b
  | live next ih => exact forall_congr' fun b => ih b
  | clock next ih => exact forall_congr' fun now => ih now
  | note n next ih => exact ih
  | pause ms next ih => exact ih
  | cancel next ih => exact ih
  | claims next ih => exact forall_congr' fun c => ih c
  | enter next ih => exact forall_congr' fun r => ih r
  | leave failure next ih => exact ih

/-- A step leads from terms to terms; what it asks of the store is allowed. -/
theorem Abides.step {p p' : Program ο α} {t t' : Table} {asked : Option Transaction}
    (h : p.Abides T g Q) (hs : p.Step t asked t' p') :
    (asked = none ∧ t' = t ∧ p'.Abides T g Q)
    ∨ ∃ op now, asked = some ⟨op, (t.perform now op).1⟩ ∧ t' = (t.perform now op).2
        ∧ T.allowed g op ∧ (T.promised g op (t.perform now op).1 →
            p'.Abides T (T.after g op (t.perform now op).1) Q) := by
  cases hs with
  | store op next now => exact .inr ⟨op, now, rfl, rfl, h.1, h.2 _⟩
  | send item next there => exact .inl ⟨rfl, rfl, h there⟩
  | live next alive => exact .inl ⟨rfl, rfl, h alive⟩
  | clock next now => exact .inl ⟨rfl, rfl, h now⟩
  | note n next => exact .inl ⟨rfl, rfl, h⟩
  | pause ms next => exact .inl ⟨rfl, rfl, h⟩
  | cancel next => exact .inl ⟨rfl, rfl, h⟩
  | claims next c => exact .inl ⟨rfl, rfl, h c⟩
  | enter next refusal => exact .inl ⟨rfl, rfl, h refusal⟩
  | leave failure next => exact .inl ⟨rfl, rfl, h⟩

end Program

/-! ## §2. Actions. -/

namespace Action

variable {T : Terms σ} {g : σ}

/-- An action abides by its terms, and `Q` holds of how it ends. -/
def Abides (T : Terms σ) (a : Action ο α) (g : σ) (Q : σ → Except ServiceError α → Prop) : Prop :=
  a.program.Abides T g Q

section Rules

variable {Q : σ → Except ServiceError α → Prop}

theorem Abides.mono {a : Action ο α} {R : σ → Except ServiceError α → Prop}
    (hQ : ∀ g r, Q g r → R g r) (h : a.Abides T g Q) : a.Abides T g R :=
  Program.Abides.mono hQ h

/-- An action goes on where the one before it has not failed. -/
@[simp] theorem abides_bind {a : Action ο β} {f : β → Action ο α} :
    (a >>= f).Abides T g Q ↔ a.Abides T g fun g' r =>
      match r with
      | .ok b => (f b).Abides T g' Q
      | .error e => Q g' (.error e) := by
  refine Program.abides_bind.trans (iff_of_eq (congrArg _ ?_))
  funext g' r
  cases r <;> rfl

@[simp] theorem abides_pure {a : α} : (pure a : Action ο α).Abides T g Q ↔ Q g (.ok a) := Iff.rfl

@[simp] theorem abides_throw {e : ServiceError} :
    (throw e : Action ο α).Abides T g Q ↔ Q g (.error e) := Iff.rfl

theorem abides_ite {c : Prop} [Decidable c] {a b : Action ο α} :
    (if c then a else b).Abides T g Q ↔ if c then a.Abides T g Q else b.Abides T g Q := by
  split <;> exact Iff.rfl

/-- To learn how an action ends does not fail. -/
@[simp] theorem abides_outcome {a : Action ο β} {Q : σ → Except ServiceError (Except ServiceError β) → Prop} :
    a.outcome.Abides T g Q ↔ a.Abides T g fun g' r => Q g' (.ok r) :=
  Program.abides_bind

end Rules

@[simp] theorem abides_attempt {op : Operation} {Q : σ → Except ServiceError op.Outcome → Prop} :
    (attempt op : Action ο op.Outcome).Abides T g Q
      ↔ T.allowed g op ∧ ∀ r, T.promised g op r → Q (T.after g op r) (.ok r) := Iff.rfl

@[simp] theorem abides_store {op : Operation} {Q : σ → Except ServiceError op.Reply → Prop} :
    (store op : Action ο op.Reply).Abides T g Q
      ↔ T.allowed g op ∧ ∀ r, T.promised g op r →
          Q (T.after g op r) (r.mapError ServiceError.ofStore) := by
  unfold store
  rw [abides_bind, abides_attempt]
  refine and_congr_right fun _ => forall_congr' fun r => imp_congr_right fun _ => ?_
  cases r <;> exact Iff.rfl

@[simp] theorem abides_note {n : Note} {Q : σ → Except ServiceError Unit → Prop} :
    (note n : Action ο Unit).Abides T g Q ↔ Q g (.ok ()) := Iff.rfl

@[simp] theorem abides_clock {Q : σ → Except ServiceError Instant → Prop} :
    (clock : Action ο Instant).Abides T g Q ↔ ∀ now, Q g (.ok now) := Iff.rfl

@[simp] theorem abides_ensureLive {Q : σ → Except ServiceError Unit → Prop} :
    (ensureLive : Action ο Unit).Abides T g Q ↔ Q g (.ok ()) ∧ Q g (.error .cancelled) :=
  ⟨fun h => ⟨h true, h false⟩, fun h b =>
    match b with
    | true => h.1
    | false => h.2⟩

@[simp] theorem abides_send {item : ο} {Q : σ → Except ServiceError Unit → Prop} :
    (send item : Action ο Unit).Abides T g Q ↔ Q g (.ok ()) ∧ Q g (.error .cancelled) :=
  ⟨fun h => ⟨h true, h false⟩, fun h b =>
    match b with
    | true => h.1
    | false => h.2⟩

end Action

end UserDirectory.Call

namespace UserDirectory.Service

open UserDirectory.Call
open UserDirectory.Store (Operation Table)

variable {σ : Type} {r : Request}

/-! ## §3. Calls. -/

/-- A handler that waits for requests abides by its terms: it answers each that arrives, and when there
are none left `Q` holds of its result. -/
def Awaits (T : Terms σ) (Q : σ → r.method.Result → Prop) :
    List (Arrival r.method.Item) → r.method.Progress → σ → Prop
  | [], kept, g =>
    (r.handler.onEnd kept).Abides T g fun g' result => ∀ x, result = .ok x → Q g' x
  | ⟨.ok x, _⟩ :: rest, kept, g =>
    (r.handler.onItem kept x).Abides T g fun g' outcome =>
      ∀ kept', outcome = .ok kept' → Awaits T Q rest kept' g'
  -- the call ends here, and without a result
  | ⟨.error _, _⟩ :: _, _, _ => True

/-- What each of the requests that arrive keeps holds at the end of the stream. -/
theorem Awaits.of_forall {T : Terms σ} {Q : σ → r.method.Result → Prop}
    {J : r.method.Progress → σ → Prop} {arrivals : List (Arrival r.method.Item)}
    (hitem : ∀ a ∈ arrivals, ∀ x, a.content = .ok x → ∀ kept g, J kept g →
      (r.handler.onItem kept x).Abides T g fun g' outcome => ∀ kept', outcome = .ok kept' → J kept' g')
    (hend : ∀ kept g, J kept g →
      (r.handler.onEnd kept).Abides T g fun g' result => ∀ x, result = .ok x → Q g' x)
    {kept : r.method.Progress} {g : σ} (h : J kept g) : Awaits T Q arrivals kept g := by
  induction arrivals generalizing kept g with
  | nil => exact hend kept g h
  | cons a rest ih =>
    obtain ⟨content, delay⟩ := a
    cases content with
    | error cause => exact trivial
    | ok x =>
      -- what this request keeps, the next one starts with
      refine Program.Abides.mono ?_ (hitem _ List.mem_cons_self x rfl kept g h)
      intro g' outcome hout kept' hkept'
      exact ih (fun b hb => hitem b (List.mem_cons_of_mem _ hb)) (hout kept' hkept')

/-- A call abides by its terms from where it has come, and `Q` holds of its result if it has one. -/
def Course.Abides (T : Terms σ) (Q : σ → r.method.Result → Prop) : Course r → σ → Prop
  | .going (.awaiting kept) rest, g => Awaits T Q rest kept g
  | .going (.handling p) rest, g =>
    p.Abides T g fun g' outcome => ∀ kept, outcome = .ok kept → Awaits T Q rest kept g'
  | .going (.closing p) _, g => p.Abides T g fun g' result => ∀ x, result = .ok x → Q g' x
  | .ended result, g => ∀ x, result = .ok x → Q g x
  | .dropped, _ => True

/-- A step leads from terms to terms; what it asks of the store is allowed. -/
theorem Course.Abides.step {T : Terms σ} {Q : σ → r.method.Result → Prop} {g : σ}
    {c c' : Course r} {t t' : Table} {asked : Option Transaction} (h : c.Abides T Q g)
    (hs : c.Step t asked t' c') :
    (asked = none ∧ t' = t ∧ c'.Abides T Q g)
    ∨ ∃ op now, asked = some ⟨op, (t.perform now op).1⟩ ∧ t' = (t.perform now op).2
        ∧ T.allowed g op ∧ (T.promised g op (t.perform now op).1 →
            c'.Abides T Q (T.after g op (t.perform now op).1)) := by
  cases hs with
  | handle rest hp => exact Program.Abides.step h hp
  | close rest hp => exact Program.Abides.step h hp
  | take kept x delay rest => exact .inl ⟨rfl, rfl, h⟩
  | breakOff kept cause delay rest => exact .inl ⟨rfl, rfl, nofun⟩
  | exhaust kept hsilent => exact .inl ⟨rfl, rfl, h⟩
  | answered kept rest => exact .inl ⟨rfl, rfl, h kept rfl⟩
  | failed cause rest => exact .inl ⟨rfl, rfl, nofun⟩
  | finish result rest => exact .inl ⟨rfl, rfl, h⟩
  | cut stage rest => exact .inl ⟨rfl, rfl, nofun⟩
  | drop stage rest => exact .inl ⟨rfl, rfl, trivial⟩

/-! ## §4. All calls together. -/

namespace System

variable {s s' : System} {mem : Nat → σ}

section

variable (T : Nat → Terms σ) (Q : Nat → (r : Request) → σ → r.method.Result → Prop)

/-- Every call abides by its terms from the memory beside it. -/
def Abides (s : System) (mem : Nat → σ) : Prop :=
  ∀ (i : Nat) (r : Request) (c : Course r), s.calls[i]? = some ⟨r, c⟩ →
    c.Abides (T i) (Q i r) (mem i)

end

variable {T : Nat → Terms σ} {Q : Nat → (r : Request) → σ → r.method.Result → Prop}

/-- A call that begins abides by its terms if its request does. -/
theorem Abides.begin (h : s.Abides T Q mem)
    (hr : (Course.start r).Abides (T s.calls.length) (Q s.calls.length r) (mem s.calls.length)) :
    Abides T Q ⟨s.table, s.calls ++ [.start r]⟩ mem := by
  intro i r' c hi
  by_cases hlt : i < s.calls.length
  · -- the calls that were there
    exact h i r' c (by rwa [List.getElem?_append_left hlt] at hi)
  · rw [List.getElem?_append_right (by omega), List.getElem?_singleton] at hi
    split at hi
    · -- the new call stands last
      rename_i hi0
      have hlen : i = s.calls.length := by omega
      subst hlen
      cases hi
      exact hr
    · cases hi

/-- A call that has come to another point abides by its terms if that point does. -/
theorem Abides.set {i : Nat} {c : Course r} {g : σ} (h : s.Abides T Q mem)
    (hc : c.Abides (T i) (Q i r) g) (t : Table) :
    Abides T Q ⟨t, s.calls.set i ⟨r, c⟩⟩ (Function.update mem i g) := by
  intro j r' c' hj
  by_cases hij : i = j
  · -- the call that has gone on
    subst hij
    rw [List.getElem?_set_self'] at hj
    cases hold : s.calls[i]? with
    | none => rw [hold] at hj; cases hj
    | some old =>
      rw [hold] at hj
      cases hj
      rw [Function.update_self]
      exact hc
  · rw [List.getElem?_set_ne hij] at hj
    rw [Function.update_of_ne (Ne.symm hij)]
    exact h j r' c' hj

/-- A step of the whole: a call begins, or nothing is asked of the store, or a call asks for something
that it is allowed. -/
theorem Abides.step {event : Option Event} (h : s.Abides T Q mem) (hs : s.Step event s') :
    (∃ r, event = none ∧ s' = ⟨s.table, s.calls ++ [.start r]⟩)
    ∨ (event = none ∧ s'.table = s.table ∧ s'.requests = s.requests ∧ s'.Abides T Q mem)
    ∨ ∃ i op now, event = some ⟨⟨op, (s.table.perform now op).1⟩, i⟩
        ∧ s'.table = (s.table.perform now op).2 ∧ s'.requests = s.requests
        ∧ (T i).allowed (mem i) op
        ∧ ((T i).promised (mem i) op (s.table.perform now op).1 →
            s'.Abides T Q
              (Function.update mem i ((T i).after (mem i) op (s.table.perform now op).1))) := by
  cases hs with
  | begin r => exact .inl ⟨r, rfl, rfl⟩
  | @go i r c c' asked t' hi hc =>
    refine .inr ?_
    -- the memories of the other calls are as they were
    obtain ⟨rfl, rfl, hc'⟩ | ⟨op, now, rfl, rfl, hop, hc'⟩ := (h i r c hi).step hc
    · refine .inl ⟨rfl, rfl, requests_set hi c' _, ?_⟩
      have := h.set hc' s.table
      rwa [Function.update_eq_self] at this
    · exact .inr ⟨i, op, now, rfl, rfl, requests_set hi c' _, hop, fun hpr => h.set (hc' hpr) _⟩

end System

/-- What every allowed operation keeps is kept by all calls together, as long as each request abides by
the terms. -/
theorem System.Runs.keeps {T : Terms Unit} {I : Table → Prop} {s s' : System} {trace : List Event}
    (hop : ∀ t now op, I t → T.allowed () op →
      I (t.perform now op).2 ∧ T.promised () op (t.perform now op).1)
    (hI : I s.table) (hs : s.Abides (fun _ => T) (fun _ _ _ _ => True) fun _ => ())
    (h : s.Runs trace s')
    (hstart : ∀ r ∈ s'.requests, (Course.start r).Abides T (fun _ _ => True) ()) :
    I s'.table ∧ s'.Abides (fun _ => T) (fun _ _ _ _ => True) fun _ => () := by
  induction h with
  | refl => exact ⟨hI, hs⟩
  | @step trace s₁ s₂ event _ hstep ih =>
    have ih := ih fun r hr => hstart r (hstep.requests_prefix.subset hr)
    obtain ⟨r, rfl, rfl⟩ | ⟨rfl, htable, _, hs'⟩ | ⟨i, op, now, rfl, htable, _, hallowed, hs'⟩ :=
      ih.2.step hstep
    · have hnew : r ∈ System.requests ⟨s₁.table, s₁.calls ++ [.start r]⟩ :=
        List.mem_map.2 ⟨.start r, List.mem_append_right _ (List.mem_singleton.2 rfl), rfl⟩
      exact ⟨ih.1, ih.2.begin (hstart r hnew)⟩
    · rw [htable]
      exact ⟨ih.1, hs'⟩
    · -- what is promised follows from what holds of the table before the operation
      obtain ⟨hI', hpr⟩ := hop _ now op ih.1 hallowed
      rw [htable]
      exact ⟨hI', hs' hpr⟩

end UserDirectory.Service
