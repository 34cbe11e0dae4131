import UserDirectory.Proofs.Call.Delivery
import UserDirectory.Proofs.Call.Quiet
import UserDirectory.Proofs.Concurrency.Terms
/-!
# Handlers that answer one request after another

A handler that makes one answer to each request, and sends it before it takes the next one, never has
more than one request without an answer.  Where it has the store for itself and an answer changes the
store at most once, the store is at any time what a number of whole requests have made of it.

Main statements:
  * `Handler.onItem_ofAnswers`: what is done for a request;
  * `Pairing.Handling.act`: what a step keeps within a request, and what it uses up.
-/

namespace UserDirectory.Call

open UserDirectory.Service (ServiceError)
open UserDirectory.Store (Operation Table)
open UserDirectory.Time (Instant)

variable {ι ο : Type}

/-! ## §1. Handlers that answer. -/

/-- The handler that makes an answer to each request that arrives, unless the call has been cancelled,
and sends it. -/
def Handler.ofAnswers (answer : ι → Action ο ο) : Handler ι ο Unit Unit :=
  .ofItems ()
    (fun _ x => do
      Action.ensureLive
      let y ← answer x
      Action.send y)
    fun _ => pure ()

/-- What is left to do when an answer has been made. -/
def replying : Except ServiceError ο → Program ο (Except ServiceError Unit)
  | .ok y => (Action.send y).program
  | .error e => .done (.error e)

/-- What is done for a request to which an answer is made. -/
def asking (a : Action ο ο) : Program ο (Except ServiceError Unit) :=
  .live fun alive => if alive then a.program.bind replying else .done (.error .cancelled)

theorem Handler.onItem_ofAnswers (answer : ι → Action ο ο) (x : ι) :
    (Handler.ofAnswers answer).onItem () x = asking (answer x) := by
  refine congrArg Program.live (funext fun alive => ?_)
  cases alive with
  | true =>
    refine congrArg (Program.bind (answer x).program) (funext fun r => ?_)
    cases r <;> rfl
  | false => rfl

/-! ## §2. Requests and their responses. -/

/-- Whether an operation may change the table. -/
def changes : Operation → Bool
  | .add _ => true
  | .update _ => true
  | .delete _ => true
  | _ => false

theorem perform_of_changes_eq_false {op : Operation} (h : changes op = false) (t : Table)
    (now : Instant) : (t.perform now op).2 = t := by
  cases op <;> first | rfl | cases h

/-- Whoever has a store alone knows what it answers: as many questions as they like may be asked, and
last of all for one change, after which `A` holds of the table. -/
def Terms.once (t : Table) (A : Table → Prop) : Terms Bool where
  allowed changed op := changed = false ∧ (changes op = true → ∀ now, A (t.perform now op).2)
  promised _ op r := ∃ now, r = (t.perform now op).1
  after changed op _ := changed || changes op

/-- What requests are about, what responses are about, and what a request asks for: what the table is
to be after it, at whatever instant it is dealt with. -/
structure Pairing (ι ο : Type) where
  subject : ι → UInt32
  respondent : ο → UInt32
  effect : Instant → ι → Table → Table

namespace Pairing

/-- A table becomes another by some requests, one after another. -/
def Applied (P : Pairing ι ο) : Table → List ι → Table → Prop
  | t, [], t' => t' = t
  | t, x :: more, t' => ∃ now, P.Applied (P.effect now x t) more t'

theorem applied_concat {P : Pairing ι ο} {t t' : Table} {items : List ι} {x : ι} :
    P.Applied t (items ++ [x]) t' ↔ ∃ t₁ now, P.Applied t items t₁ ∧ t' = P.effect now x t₁ := by
  induction items generalizing t with
  | nil => exact ⟨fun ⟨now, h⟩ => ⟨t, now, rfl, h⟩, fun ⟨_, now, h, h'⟩ => ⟨now, h ▸ h'⟩⟩
  | cons y more ih =>
    constructor
    · rintro ⟨now, h⟩
      obtain ⟨t₁, now', h₁, h₂⟩ := ih.1 h
      exact ⟨t₁, now', ⟨now, h₁⟩, h₂⟩
    · rintro ⟨t₁, now', ⟨now, h₁⟩, h₂⟩
      exact ⟨now, ih.2 ⟨t₁, now', h₁, h₂⟩⟩

/-- An answer has been made to a request, in a store that had a table before. -/
def Answered (P : Pairing ι ο) (x : ι) (t : Table) (changed : Bool) (r : Except ServiceError ο) :
    Prop :=
  ∃ y, r = .ok y ∧ P.respondent y = P.subject x ∧ (changed = false → ∃ now, t = P.effect now x t)

/-- Where the store is not touched otherwise, to each request an answer is made that is about the same,
within so many steps, and all that is changed is what the request asks for. -/
structure Meets (P : Pairing ι ο) (answer : ι → Action ο ο) (bound : Nat) : Prop where
  quiet : ∀ x, (answer x).Quiet bound
  once : ∀ x t,
    (answer x).Abides (.once t fun t' => ∃ now, t' = P.effect now x t) false (P.Answered x t)

/-- Every request that has been taken is answered and has had its effect. -/
structure Even (P : Pairing ι ο) (t₀ : Table) (taken : List ι) (accepted : List ο) (t : Table) :
    Prop where
  ids : accepted.map P.respondent = taken.map P.subject
  table : P.Applied t₀ taken t

/-- The last request that has been taken is not answered, and has had its effect or not. -/
def Behind (P : Pairing ι ο) (t₀ : Table) (taken : List ι) (accepted : List ο) (t : Table) : Prop :=
  ∃ before x t₁, taken = before ++ [x] ∧ P.Even t₀ before accepted t₁
    ∧ (t = t₁ ∨ ∃ now, t = P.effect now x t₁)

end Pairing

/-- The call can no longer come to its end: it has been cancelled, or its caller has left. -/
def Stance.Hindered (g : Stance ο) : Prop :=
  g.cancelled = true ∨ ∃ how, g.outbound.reader.ending = some how ∧ how ≠ .closed

theorem Stance.Alike.hindered {g g' : Stance ο} (ha : g.Alike g') (h : g.Hindered) :
    g'.Hindered := by
  unfold Stance.Hindered at h ⊢
  rwa [ha.cancelled, ha.outbound]

/-- How far a handler has come with a request, and how much is still to do at most; that a response has
to be read counts as one more. -/
inductive Pairing.Handling (P : Pairing ι ο) (answer : ι → Action ο ο) (bound : Nat) (t₀ : Table)
    (taken : List ι) (g : Stance ο) (t : Table) : Program ο (Except ServiceError Unit) → Nat → Prop
  | answered (h : P.Even t₀ taken g.accepted t) :
      Handling P answer bound t₀ taken g t (.done (.ok ())) 8
  | failed (hhindered : g.Hindered) (h : P.Behind t₀ taken g.accepted t) :
      Handling P answer bound t₀ taken g t (.done (.error .cancelled)) 8
  | asking {before : List ι} {x : ι} (htaken : taken = before ++ [x])
      (h : P.Even t₀ before g.accepted t) :
      Handling P answer bound t₀ taken g t (asking (answer x)) (11 + bound)
  | answering {before : List ι} {x : ι} {t₁ : Table} {p : Program ο (Except ServiceError ο)} {n : Nat}
      {changed : Bool} (htaken : taken = before ++ [x]) (h : P.Even t₀ before g.accepted t₁)
      (hquiet : p.Quiet n)
      (honce : p.Abides (.once t₁ fun t' => ∃ now, t' = P.effect now x t₁) changed (P.Answered x t₁))
      (hstill : changed = false → t = t₁) (hchanged : changed = true → ∃ now, t = P.effect now x t₁) :
      Handling P answer bound t₀ taken g t (p.bind replying) (10 + n)

namespace Pairing

section

variable {P : Pairing ι ο} {answer : ι → Action ο ο} {bound k : Nat} {t₀ t t' : Table}
  {taken : List ι} {g g' : Stance ο} {p p' : Program ο (Except ServiceError Unit)}

/-- While an answer is made, the last request is not answered. -/
theorem Handling.even_or_behind (h : P.Handling answer bound t₀ taken g t p k) :
    P.Even t₀ taken g.accepted t ∨ P.Behind t₀ taken g.accepted t := by
  cases h with
  | answered h => exact .inl h
  | failed hhindered h => exact .inr h
  | asking htaken h => exact .inr ⟨_, _, _, htaken, h, .inl rfl⟩
  | @answering before x t₁ p n changed htaken h hquiet honce hstill hchanged =>
    refine .inr ⟨_, _, _, htaken, h, ?_⟩
    cases changed with
    | false => exact .inl (hstill rfl)
    | true => exact .inr (hchanged rfl)

/-- A handler that is done with a request has answered it, or the call cannot come to its end. -/
theorem Handling.done {r : Except ServiceError Unit}
    (h : P.Handling answer bound t₀ taken g t (.done r) k) :
    k = 8 ∧ ((r = .ok () ∧ P.Even t₀ taken g.accepted t)
      ∨ (r = .error .cancelled ∧ g.Hindered ∧ P.Behind t₀ taken g.accepted t)) := by
  generalize hp : Program.done r = p at h
  cases h with
  | answered h =>
    cases hp
    exact ⟨rfl, .inl ⟨rfl, h⟩⟩
  | failed hhindered h =>
    cases hp
    exact ⟨rfl, .inr ⟨rfl, hhindered, h⟩⟩
  | asking htaken h => cases hp
  | @answering before x t₁ q n changed htaken h hquiet honce hstill hchanged =>
    -- an answer is always made, and then it is sent
    cases q with
    | done r' =>
      obtain ⟨y, rfl, _⟩ := honce
      cases hp
    | _ => cases hp

/-- An answer that has been sent was the one that was missing. -/
theorem Even.sent {before : List ι} {x : ι} {t₁ : Table} {accepted : List ο} {y : ο}
    (h : P.Even t₀ before accepted t₁) (hid : P.respondent y = P.subject x)
    (ht : ∃ now, t = P.effect now x t₁) : P.Even t₀ (before ++ [x]) (accepted ++ [y]) t := by
  obtain ⟨now, ht⟩ := ht
  refine ⟨?_, applied_concat.2 ⟨t₁, now, h.table, ht⟩⟩
  rw [List.map_append, List.map_append, h.ids, List.map_singleton, List.map_singleton, hid]

/-- A step of a handler within a request keeps to what is due, and uses some of it up. -/
theorem Handling.act {label : Option Deed} (hmeets : P.Meets answer bound)
    (h : P.Handling answer bound t₀ taken g t p k)
    (hopen : g.outbound.reader.ending ≠ some .closed) (hact : p.Act g label g' p')
    (ht : Answers t label.toList t') :
    g'.owed = g.owed ∧ ∃ k', P.Handling answer bound t₀ taken g' t' p' k'
      ∧ k' + g'.outbound.waiting.length < k + g.outbound.waiting.length := by
  cases h with
  | answered h => cases hact
  | failed hhindered h => cases hact
  | @asking before x htaken h =>
    unfold Call.asking at hact
    cases hact with
    | live next alive halive =>
      cases ht
      refine ⟨rfl, ?_⟩
      cases alive with
      | true =>
        refine ⟨10 + bound, ?_, by omega⟩
        exact .answering htaken h (hmeets.quiet x) (hmeets.once x t) (fun _ => rfl) nofun
      | false =>
        exact ⟨8, .failed (.inl (halive rfl)) ⟨_, _, _, htaken, h, .inl rfl⟩, by omega⟩
  | @answering before x t₁ q n changed htaken h hquiet honce hstill hchanged =>
    cases q with
    | done r =>
      obtain ⟨y, rfl, hid, hsame⟩ := honce
      -- whether the table has been changed or not, it is as the request asks
      have heffect : ∃ now, t = P.effect now x t₁ := by
        cases changed with
        | false => exact hstill rfl ▸ hsame rfl
        | true => exact hchanged rfl
      cases hact with
      | send item next hthere hroom =>
        cases ht
        refine ⟨rfl, 8, .answered (htaken ▸ h.sent hid heffect), ?_⟩
        have hlength : (g.accept y).outbound.waiting.length = g.outbound.waiting.length + 1 :=
          List.length_append
        omega
      | sendGone item next hgone =>
        cases ht
        obtain ⟨how, hhow⟩ := Option.isSome_iff_exists.1 hgone
        refine ⟨rfl, 8, .failed (.inr ⟨how, hhow, ?_⟩) ⟨_, _, _, htaken, h, .inr heffect⟩, by omega⟩
        rintro rfl
        exact hopen hhow
    | store op next =>
      obtain ⟨m, rfl, hnext⟩ := hquiet
      obtain ⟨⟨rfl, hallowed⟩, honce⟩ := honce
      cases hstill rfl
      cases hact with
      | store _ _ now r =>
        obtain ⟨hr, ht'⟩ := ht
        have hr : r = (t.perform now op).1 := hr
        subst hr
        cases ht'
        refine ⟨rfl, 10 + m, ?_, by omega⟩
        refine .answering htaken h (hnext _) (honce _ ⟨now, rfl⟩) (fun hsame => ?_) fun hchange => ?_
        · exact perform_of_changes_eq_false hsame t now
        · exact hallowed hchange now
    | clock next =>
      obtain ⟨m, rfl, hnext⟩ := hquiet
      cases hact with
      | clock _ now =>
        cases ht
        exact ⟨rfl, 10 + m, .answering htaken h (hnext now) (honce now) hstill hchanged, by omega⟩
    | note line next =>
      obtain ⟨m, rfl, _, hnext⟩ := hquiet
      cases hact with
      | note _ _ =>
        cases ht
        exact ⟨rfl, 10 + m, .answering htaken h hnext honce hstill hchanged, by omega⟩
    | _ => exact hquiet.elim

/-- As long as a handler is not done with a request, it can go on, if nothing waits to be read. -/
theorem Handling.progress (h : P.Handling answer bound t₀ taken g t p k)
    (hthere : g.outbound.readerGone = false) (hroom : g.outbound.hasRoom = true) : p.CanGo g t := by
  cases h with
  | answered h => exact .inl ⟨_, rfl⟩
  | failed hhindered h => exact .inl ⟨_, rfl⟩
  | asking htaken h => exact .inr ⟨none, g, _, t, .live _ true nofun, rfl, rfl, rfl⟩
  | @answering before x t₁ q n changed htaken h hquiet honce hstill hchanged =>
    refine .inr ?_
    cases q with
    | done r =>
      obtain ⟨y, rfl, _⟩ := honce
      exact ⟨none, _, _, t, .send y _ hthere hroom, rfl, rfl, rfl⟩
    | store op next =>
      exact ⟨_, g, _, _, .store op _ .epoch (t.perform .epoch op).1, ⟨rfl, rfl⟩, rfl, rfl⟩
    | clock next => exact ⟨_, g, _, t, .clock _ .epoch, rfl, rfl, rfl⟩
    | note line next => exact ⟨_, g, _, t, .note line _, rfl, rfl, rfl⟩
    | _ => exact hquiet.elim

end

end Pairing

end UserDirectory.Call
