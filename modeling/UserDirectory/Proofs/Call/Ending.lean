import UserDirectory.Proofs.Call.Sharing
/-!
# How programs end

What a program reads of the clock that has its store for itself, what it sends, which table it leaves and
how it ends is a relation that can be read off it, so nobody who wants to know that has to follow it step by
step.  Where it does not matter what the clock has shown, the readings are left out.

Main statements:
  * `Program.ends_iff_exists_endsAt`: with readings or without;
  * `Program.endsAt_bind`, `Action.endsAt_bind`, and a rule for each action;
  * `Program.Quiet.endsAt_iff`: what whoever only asks comes to does not depend on the call;
  * `Program.Act.endsAt`: a step is the beginning of what the program does.
-/

namespace UserDirectory.Call

open UserDirectory.Service (ServiceError Status)
open UserDirectory.Store (Operation Table)
open UserDirectory.Telemetry (Note)
open UserDirectory.Time (Instant)

variable {ι ο σ α β : Type}

/-! ## §1. Programs. -/

/-- A program that has the store for itself begins with a table, sends some responses, and ends with a
table and a value.  Only where its call is hindered it may find the call cancelled or the caller gone. -/
def Program.Ends (hindered : Bool) : Program ο α → Table → List ο → Table → α → Prop
  | .done a, t, sent, t', b => sent = [] ∧ t' = t ∧ b = a
  | .store op next, t, sent, t', b =>
    ∃ now, (next (t.perform now op).1).Ends hindered (t.perform now op).2 sent t' b
  | .send item next, t, sent, t', b =>
    (∃ more, sent = item :: more ∧ (next true).Ends hindered t more t' b)
      ∨ (hindered = true ∧ (next false).Ends hindered t sent t' b)
  | .live next, t, sent, t', b =>
    (next true).Ends hindered t sent t' b
      ∨ (hindered = true ∧ (next false).Ends hindered t sent t' b)
  | .clock next, t, sent, t', b => ∃ now, (next now).Ends hindered t sent t' b
  | .note _ next, t, sent, t', b => next.Ends hindered t sent t' b
  | .pause _ next, t, sent, t', b => next.Ends hindered t sent t' b
  | .cancel next, t, sent, t', b => next.Ends hindered t sent t' b
  | .claims next, t, sent, t', b => ∃ c, (next c).Ends hindered t sent t' b
  | .enter next, t, sent, t', b => ∃ refusal, (next refusal).Ends hindered t sent t' b
  | .leave _ next, t, sent, t', b => next.Ends hindered t sent t' b

/-- The same with what the clock has shown whenever it was read, by the program or by the store. -/
def Program.EndsAt (hindered : Bool) : Program ο α → List Instant → Table → List ο → Table → α → Prop
  | .done a, readings, t, sent, t', b => readings = [] ∧ sent = [] ∧ t' = t ∧ b = a
  | .store op next, readings, t, sent, t', b =>
    ∃ now later, readings = now :: later
      ∧ (next (t.perform now op).1).EndsAt hindered later (t.perform now op).2 sent t' b
  | .send item next, readings, t, sent, t', b =>
    (∃ more, sent = item :: more ∧ (next true).EndsAt hindered readings t more t' b)
      ∨ (hindered = true ∧ (next false).EndsAt hindered readings t sent t' b)
  | .live next, readings, t, sent, t', b =>
    (next true).EndsAt hindered readings t sent t' b
      ∨ (hindered = true ∧ (next false).EndsAt hindered readings t sent t' b)
  | .clock next, readings, t, sent, t', b =>
    ∃ now later, readings = now :: later ∧ (next now).EndsAt hindered later t sent t' b
  | .note _ next, readings, t, sent, t', b => next.EndsAt hindered readings t sent t' b
  | .pause _ next, readings, t, sent, t', b => next.EndsAt hindered readings t sent t' b
  | .cancel next, readings, t, sent, t', b => next.EndsAt hindered readings t sent t' b
  | .claims next, readings, t, sent, t', b => ∃ c, (next c).EndsAt hindered readings t sent t' b
  | .enter next, readings, t, sent, t', b =>
    ∃ refusal, (next refusal).EndsAt hindered readings t sent t' b
  | .leave _ next, readings, t, sent, t', b => next.EndsAt hindered readings t sent t' b

namespace Program

variable {hindered : Bool} {t t' t'' : Table} {sent more : List ο} {readings later : List Instant}

/-- What a program comes to is what it comes to with some readings of the clock. -/
theorem ends_iff_exists_endsAt {p : Program ο α} {a : α} :
    p.Ends hindered t sent t' a ↔ ∃ readings, p.EndsAt hindered readings t sent t' a := by
  induction p generalizing t sent with
  | done b => exact ⟨fun h => ⟨[], rfl, h⟩, fun ⟨_, _, h⟩ => h⟩
  -- the store dates what it does, so it reads the clock as whoever asks for the time does
  | store op next ih
  | clock next ih =>
    constructor
    · rintro ⟨now, h⟩
      obtain ⟨later, h⟩ := (ih _).1 h
      exact ⟨_, now, later, rfl, h⟩
    · rintro ⟨_, now, later, rfl, h⟩
      exact ⟨now, (ih _).2 ⟨later, h⟩⟩
  | send item next ih =>
    constructor
    · rintro (⟨more, rfl, h⟩ | ⟨hhindered, h⟩)
      · exact ((ih _).1 h).imp fun _ h => .inl ⟨more, rfl, h⟩
      · exact ((ih _).1 h).imp fun _ h => .inr ⟨hhindered, h⟩
    · rintro ⟨readings, ⟨more, rfl, h⟩ | ⟨hhindered, h⟩⟩
      · exact .inl ⟨more, rfl, (ih _).2 ⟨readings, h⟩⟩
      · exact .inr ⟨hhindered, (ih _).2 ⟨readings, h⟩⟩
  | live next ih =>
    constructor
    · rintro (h | ⟨hhindered, h⟩)
      · exact ((ih _).1 h).imp fun _ h => .inl h
      · exact ((ih _).1 h).imp fun _ h => .inr ⟨hhindered, h⟩
    · rintro ⟨readings, h | ⟨hhindered, h⟩⟩
      · exact .inl ((ih _).2 ⟨readings, h⟩)
      · exact .inr ⟨hhindered, (ih _).2 ⟨readings, h⟩⟩
  | claims next ih
  | enter next ih =>
    constructor
    · rintro ⟨x, h⟩
      exact ((ih _).1 h).imp fun _ h => ⟨x, h⟩
    · rintro ⟨readings, x, h⟩
      exact ⟨x, (ih _).2 ⟨readings, h⟩⟩
  | note n next ih
  | pause ms next ih
  | cancel next ih
  | leave failure next ih => exact ih

/-- Two programs one after another read and send what the one does and then what the other does. -/
theorem endsAt_bind {p : Program ο β} {f : β → Program ο α} {a : α} :
    (p.bind f).EndsAt hindered readings t sent t' a
      ↔ ∃ first before t₁ b second after, p.EndsAt hindered first t before t₁ b
          ∧ (f b).EndsAt hindered second t₁ after t' a
          ∧ readings = first ++ second ∧ sent = before ++ after := by
  induction p generalizing t sent readings with
  | done b =>
    constructor
    · exact fun h => ⟨[], [], t, b, readings, sent, ⟨rfl, rfl, rfl, rfl⟩, h, rfl, rfl⟩
    · rintro ⟨_, _, _, _, _, _, ⟨rfl, rfl, rfl, rfl⟩, h, rfl, rfl⟩
      exact h
  -- the reading that is taken now is the first of all
  | store op next ih
  | clock next ih =>
    constructor
    · rintro ⟨now, _, rfl, h⟩
      obtain ⟨first, before, t₁, b, second, after, hp, hf, rfl, rfl⟩ := (ih _).1 h
      exact ⟨now :: first, before, t₁, b, second, after, ⟨now, first, rfl, hp⟩, hf, rfl, rfl⟩
    · rintro ⟨_, before, t₁, b, second, after, ⟨now, first, rfl, hp⟩, hf, rfl, rfl⟩
      exact ⟨now, _, rfl, (ih _).2 ⟨first, before, t₁, b, second, after, hp, hf, rfl, rfl⟩⟩
  | send item next ih =>
    constructor
    · rintro (⟨_, rfl, h⟩ | ⟨hhindered, h⟩)
      · obtain ⟨first, before, t₁, b, second, after, hp, hf, rfl, rfl⟩ := (ih _).1 h
        exact ⟨first, item :: before, t₁, b, second, after, .inl ⟨before, rfl, hp⟩, hf, rfl, rfl⟩
      · obtain ⟨first, before, t₁, b, second, after, hp, hf, rfl, rfl⟩ := (ih _).1 h
        exact ⟨first, before, t₁, b, second, after, .inr ⟨hhindered, hp⟩, hf, rfl, rfl⟩
    · rintro ⟨first, _, t₁, b, second, after, ⟨before, rfl, hp⟩ | ⟨hhindered, hp⟩, hf, rfl, rfl⟩
      · exact .inl ⟨before ++ after, rfl,
          (ih _).2 ⟨first, before, t₁, b, second, after, hp, hf, rfl, rfl⟩⟩
      · exact .inr ⟨hhindered, (ih _).2 ⟨first, _, t₁, b, second, after, hp, hf, rfl, rfl⟩⟩
  | live next ih =>
    constructor
    · rintro (h | ⟨hhindered, h⟩)
      · obtain ⟨first, before, t₁, b, second, after, hp, hf, rfl, rfl⟩ := (ih _).1 h
        exact ⟨first, before, t₁, b, second, after, .inl hp, hf, rfl, rfl⟩
      · obtain ⟨first, before, t₁, b, second, after, hp, hf, rfl, rfl⟩ := (ih _).1 h
        exact ⟨first, before, t₁, b, second, after, .inr ⟨hhindered, hp⟩, hf, rfl, rfl⟩
    · rintro ⟨first, before, t₁, b, second, after, hp | ⟨hhindered, hp⟩, hf, rfl, rfl⟩
      · exact .inl ((ih _).2 ⟨first, before, t₁, b, second, after, hp, hf, rfl, rfl⟩)
      · exact .inr ⟨hhindered, (ih _).2 ⟨first, before, t₁, b, second, after, hp, hf, rfl, rfl⟩⟩
  | claims next ih
  | enter next ih =>
    constructor
    · rintro ⟨x, h⟩
      obtain ⟨first, before, t₁, b, second, after, hp, hf, rfl, rfl⟩ := (ih _).1 h
      exact ⟨first, before, t₁, b, second, after, ⟨x, hp⟩, hf, rfl, rfl⟩
    · rintro ⟨first, before, t₁, b, second, after, ⟨x, hp⟩, hf, rfl, rfl⟩
      exact ⟨x, (ih _).2 ⟨first, before, t₁, b, second, after, hp, hf, rfl, rfl⟩⟩
  | note n next ih
  | pause ms next ih
  | cancel next ih
  | leave failure next ih => exact ih

theorem ends_bind {p : Program ο β} {f : β → Program ο α} {a : α} :
    (p.bind f).Ends hindered t sent t' a
      ↔ ∃ before t₁ b after, p.Ends hindered t before t₁ b ∧ (f b).Ends hindered t₁ after t' a
          ∧ sent = before ++ after := by
  simp only [ends_iff_exists_endsAt, endsAt_bind]
  constructor
  · rintro ⟨_, first, before, t₁, b, second, after, hp, hf, _, hsent⟩
    exact ⟨before, t₁, b, after, ⟨first, hp⟩, ⟨second, hf⟩, hsent⟩
  · rintro ⟨before, t₁, b, after, ⟨first, hp⟩, ⟨second, hf⟩, hsent⟩
    exact ⟨_, first, before, t₁, b, second, after, hp, hf, rfl, hsent⟩

/-- What a program does after a step it does with the step, as long as whoever is hindered then is taken
to be so. -/
theorem Act.endsAt {p p' : Program ο α} {g g' : Stance ο} {label : Option Deed} {a : α}
    (hact : p.Act g label g' p') (ht : Answers t label.toList t')
    (hopen : g.outbound.reader.ending ≠ some .closed) (hb : g'.Hindered → hindered = true)
    (h : p'.EndsAt hindered later t' more t'' a) :
    ∃ new, g'.accepted = g.accepted ++ new
      ∧ p.EndsAt hindered (label.toList.filterMap Deed.reading ++ later) t (new ++ more) t'' a := by
  -- most steps send nothing
  have hnone : ∀ {q : Program ο α} {readings}, q.EndsAt hindered readings t more t'' a →
      g'.accepted = g.accepted →
      ∃ new, g'.accepted = g.accepted ++ new ∧ q.EndsAt hindered readings t (new ++ more) t'' a :=
    fun hq hsame => ⟨[], by rw [hsame, List.append_nil], hq⟩
  cases hact with
  | store op next now r =>
    obtain ⟨hr, rfl⟩ := ht
    have hanswer : r = (t.perform now op).1 := hr
    refine hnone ⟨now, later, rfl, ?_⟩ rfl
    rw [← hanswer]
    exact h
  | send item next hthere hroom =>
    cases ht
    exact ⟨[item], rfl, .inl ⟨more, rfl, h⟩⟩
  | sendGone item next hgone =>
    -- a caller who has gone before the end hinders the call
    cases ht
    obtain ⟨how, hhow⟩ := Option.isSome_iff_exists.1 hgone
    refine hnone (.inr ⟨hb (.inr ⟨how, hhow, ?_⟩), h⟩) rfl
    rintro rfl
    exact hopen hhow
  | live next alive halive =>
    -- only a call that has been cancelled is told so
    cases ht
    cases alive with
    | true => exact hnone (.inl h) rfl
    | false => exact hnone (.inr ⟨hb (.inl (halive rfl)), h⟩) rfl
  | clock next now =>
    cases ht
    exact hnone ⟨now, later, rfl, h⟩ rfl
  | note n next
  | pause ms next
  | cancel next =>
    cases ht
    exact hnone h rfl
  | claims next c =>
    cases ht
    exact hnone ⟨c, h⟩ rfl
  | enter next =>
    cases ht
    exact hnone ⟨none, h⟩ rfl
  | enterDenied next cause millis =>
    cases ht
    exact hnone ⟨some cause, h⟩
      (g.begin_alike.trans (g.begin.close_alike millis (.failed cause))).accepted
  | leave failure next millis =>
    cases ht
    exact hnone h (g.close_alike millis (.ofFailure failure)).accepted

/-- Whoever is hindered before a step of a program is so after it. -/
theorem Act.hindered_after {p p' : Program ο α} {g g' : Stance ο} {label : Option Deed}
    (hact : p.Act g label g' p') (h : g.Hindered) : g'.Hindered := by
  rcases hact.stance_cases with ha | rfl | ⟨item, _, rfl⟩
  · exact ha.hindered h
  · exact .inl rfl
  · exact h

/-- Whoever only asks sends nothing, and what it comes to does not depend on the call. -/
theorem Quiet.endsAt_iff {p : Program ο α} {n : Nat} {a : α} (h : p.Quiet n) :
    p.EndsAt hindered readings t sent t' a ↔ sent = [] ∧ p.EndsAt false readings t [] t' a := by
  induction p generalizing t sent readings n with
  | done b =>
    constructor
    · rintro ⟨rfl, rfl, rfl, rfl⟩
      exact ⟨rfl, rfl, rfl, rfl, rfl⟩
    · rintro ⟨rfl, rfl, _, rfl, rfl⟩
      exact ⟨rfl, rfl, rfl, rfl⟩
  | store op next ih
  | clock next ih =>
    obtain ⟨m, rfl, hnext⟩ := h
    constructor
    · rintro ⟨now, later, rfl, h⟩
      obtain ⟨rfl, hfree⟩ := (ih _ (hnext _)).1 h
      exact ⟨rfl, now, later, rfl, hfree⟩
    · rintro ⟨rfl, now, later, rfl, h⟩
      exact ⟨now, later, rfl, (ih _ (hnext _)).2 ⟨rfl, h⟩⟩
  | note line next ih =>
    obtain ⟨m, rfl, _, hnext⟩ := h
    exact ih hnext
  | _ => exact h.elim

end Program

/-! ## §2. Actions. -/

namespace Action

variable {hindered : Bool} {t t' : Table} {sent : List ο} {readings : List Instant}

/-- An action that has the store for itself begins with a table, sends some responses, and ends with a
table and a value or a failure. -/
def Ends (hindered : Bool) (a : Action ο α) (t : Table) (sent : List ο) (t' : Table)
    (r : Except ServiceError α) : Prop :=
  a.program.Ends hindered t sent t' r

/-- The same with what the clock has shown whenever it was read. -/
def EndsAt (hindered : Bool) (a : Action ο α) (readings : List Instant) (t : Table) (sent : List ο)
    (t' : Table) (r : Except ServiceError α) : Prop :=
  a.program.EndsAt hindered readings t sent t' r

theorem ends_iff_exists_endsAt {a : Action ο α} {r : Except ServiceError α} :
    a.Ends hindered t sent t' r ↔ ∃ readings, a.EndsAt hindered readings t sent t' r :=
  Program.ends_iff_exists_endsAt

/-- Of two actions one after another, the second is done unless the first fails. -/
theorem endsAt_bind {a : Action ο β} {f : β → Action ο α} {r : Except ServiceError α} :
    (a >>= f).EndsAt hindered readings t sent t' r
      ↔ (∃ first before t₁ b second after, a.EndsAt hindered first t before t₁ (.ok b)
            ∧ (f b).EndsAt hindered second t₁ after t' r
            ∧ readings = first ++ second ∧ sent = before ++ after)
        ∨ ∃ e, a.EndsAt hindered readings t sent t' (.error e) ∧ r = .error e := by
  refine Program.endsAt_bind.trans ⟨?_, ?_⟩
  · rintro ⟨first, before, t₁, b | b, second, after, ha, hf, rfl, rfl⟩
    · obtain ⟨rfl, rfl, rfl, rfl⟩ := hf
      rw [List.append_nil, List.append_nil]
      exact .inr ⟨b, ha, rfl⟩
    · exact .inl ⟨first, before, t₁, b, second, after, ha, hf, rfl, rfl⟩
  · rintro (⟨first, before, t₁, b, second, after, ha, hf, rfl, rfl⟩ | ⟨e, ha, rfl⟩)
    · exact ⟨first, before, t₁, .ok b, second, after, ha, hf, rfl, rfl⟩
    · exact ⟨readings, sent, t', .error e, [], [], ha, ⟨rfl, rfl, rfl, rfl⟩,
        (List.append_nil _).symm, (List.append_nil _).symm⟩

/-- Two actions one after another do not fail where neither does. -/
theorem endsAt_bind_ok {a : Action ο β} {f : β → Action ο α} {x : α} :
    (a >>= f).EndsAt hindered readings t sent t' (.ok x)
      ↔ ∃ first before t₁ b second after, a.EndsAt hindered first t before t₁ (.ok b)
          ∧ (f b).EndsAt hindered second t₁ after t' (.ok x)
          ∧ readings = first ++ second ∧ sent = before ++ after := by
  rw [endsAt_bind]
  exact or_iff_left fun ⟨_, _, h⟩ => nomatch h

/-- After a check that reads and changes nothing, more is done or the call ends with what the check has
found. -/
theorem endsAt_check {a : Action ο β} {f : β → Action ο α} {c : Except ServiceError β}
    {r : Except ServiceError α} :
    (∀ readings sent t' r, a.EndsAt hindered readings t sent t' r
      ↔ readings = [] ∧ sent = [] ∧ t' = t ∧ r = c) →
    ((a >>= f).EndsAt hindered readings t sent t' r
      ↔ match c with
        | .ok b => (f b).EndsAt hindered readings t sent t' r
        | .error e => readings = [] ∧ sent = [] ∧ t' = t ∧ r = .error e) := by
  intro ha
  rw [endsAt_bind]
  simp only [ha]
  cases c with
  | ok b =>
    constructor
    · rintro (⟨_, _, _, _, second, after, ⟨rfl, rfl, rfl, hb⟩, hf, rfl, rfl⟩ | ⟨e, ⟨_, _, _, he⟩, _⟩)
      · cases hb
        exact hf
      · cases he
    · exact fun hf => .inl ⟨[], [], t, b, readings, sent, ⟨rfl, rfl, rfl, rfl⟩, hf, rfl, rfl⟩
  | error e =>
    constructor
    · rintro (⟨_, _, _, _, _, _, ⟨_, _, _, hb⟩, _⟩ | ⟨_, ⟨rfl, rfl, rfl, he⟩, rfl⟩)
      · cases hb
      · cases he
        exact ⟨rfl, rfl, rfl, rfl⟩
    · rintro ⟨rfl, rfl, rfl, rfl⟩
      exact .inr ⟨e, ⟨rfl, rfl, rfl, rfl⟩, rfl⟩

theorem endsAt_ite {c : Prop} [Decidable c] {a b : Action ο α} {r : Except ServiceError α} :
    (if c then a else b).EndsAt hindered readings t sent t' r
      ↔ if c then a.EndsAt hindered readings t sent t' r else b.EndsAt hindered readings t sent t' r := by
  split <;> exact Iff.rfl

/-- An action after which nothing more is done than that its value is exchanged for another. -/
theorem endsAt_map {a : Action ο β} {f : β → Action ο α} {g : β → α} {r : Except ServiceError α}
    (hf : ∀ b readings t sent t' r,
      (f b).EndsAt hindered readings t sent t' r ↔ readings = [] ∧ sent = [] ∧ t' = t ∧ r = .ok (g b)) :
    (a >>= f).EndsAt hindered readings t sent t' r
      ↔ ∃ r', a.EndsAt hindered readings t sent t' r' ∧ r = r'.map g := by
  rw [endsAt_bind]
  simp only [hf]
  constructor
  · rintro (⟨first, before, _, b, _, _, ha, ⟨rfl, rfl, rfl, rfl⟩, rfl, rfl⟩ | ⟨e, ha, rfl⟩)
    · rw [List.append_nil, List.append_nil]
      exact ⟨.ok b, ha, rfl⟩
    · exact ⟨.error e, ha, rfl⟩
  · rintro ⟨e | b, ha, rfl⟩
    · exact .inr ⟨e, ha, rfl⟩
    · exact .inl ⟨readings, sent, t', b, [], [], ha, ⟨rfl, rfl, rfl, rfl⟩,
        (List.append_nil _).symm, (List.append_nil _).symm⟩

/-- To learn how an action ends does not fail. -/
theorem endsAt_outcome {a : Action ο α} {r : Except ServiceError (Except ServiceError α)} :
    a.outcome.EndsAt hindered readings t sent t' r
      ↔ ∃ r', a.EndsAt hindered readings t sent t' r' ∧ r = .ok r' := by
  refine Program.endsAt_bind.trans ⟨?_, ?_⟩
  · rintro ⟨first, before, t₁, r', _, _, ha, ⟨rfl, rfl, rfl, rfl⟩, rfl, rfl⟩
    rw [List.append_nil, List.append_nil]
    exact ⟨r', ha, rfl⟩
  · rintro ⟨r', ha, rfl⟩
    exact ⟨readings, sent, t', r', [], [], ha, ⟨rfl, rfl, rfl, rfl⟩,
      (List.append_nil _).symm, (List.append_nil _).symm⟩

/-- Once it is known how an action ends, something is made of that, and nothing more is done. -/
theorem endsAt_outcome_map {a : Action ο β} {f : Except ServiceError β → Action ο α}
    {g : Except ServiceError β → α} {r : Except ServiceError α}
    (hf : ∀ x first sent₁ t₁, a.EndsAt hindered first t sent₁ t₁ x → ∀ readings t sent t' r,
      (f x).EndsAt hindered readings t sent t' r
        ↔ readings = [] ∧ sent = [] ∧ t' = t ∧ r = .ok (g x)) :
    (a.outcome >>= f).EndsAt hindered readings t sent t' r
      ↔ ∃ x, a.EndsAt hindered readings t sent t' x ∧ r = .ok (g x) := by
  rw [endsAt_bind]
  constructor
  · rintro (⟨_, _, _, _, _, _, houtcome, hmade, rfl, rfl⟩ | ⟨_, houtcome, _⟩)
    · obtain ⟨x, hx, hok⟩ := endsAt_outcome.1 houtcome
      cases hok
      obtain ⟨rfl, rfl, rfl, rfl⟩ := (hf _ _ _ _ hx _ _ _ _ _).1 hmade
      rw [List.append_nil, List.append_nil]
      exact ⟨_, hx, rfl⟩
    · obtain ⟨_, _, herror⟩ := endsAt_outcome.1 houtcome
      cases herror
  · rintro ⟨x, hx, rfl⟩
    exact .inl ⟨readings, sent, t', x, [], [], endsAt_outcome.2 ⟨x, hx, rfl⟩,
      (hf _ _ _ _ hx _ _ _ _ _).2 ⟨rfl, rfl, rfl, rfl⟩, (List.append_nil _).symm,
      (List.append_nil _).symm⟩

/-- The store is asked first, at a reading of the clock, and then what is done with its answer. -/
theorem endsAt_attempt_bind {op : Operation} {f : op.Outcome → Action ο α} {r : Except ServiceError α} :
    (attempt op >>= f).EndsAt hindered readings t sent t' r
      ↔ ∃ now later, readings = now :: later
          ∧ (f (t.perform now op).1).EndsAt hindered later (t.perform now op).2 sent t' r := Iff.rfl

theorem endsAt_store {op : Operation} {r : Except ServiceError op.Reply} :
    (store op : Action ο op.Reply).EndsAt hindered readings t sent t' r
      ↔ ∃ now, readings = [now] ∧ sent = [] ∧ t' = (t.perform now op).2
          ∧ r = (t.perform now op).1.mapError ServiceError.ofStore := by
  refine exists_congr fun now => ?_
  cases (t.perform now op).1 <;>
    exact ⟨fun ⟨_, hreadings, hnone, hrest⟩ => ⟨hnone ▸ hreadings, hrest⟩,
      fun ⟨hreadings, hrest⟩ => ⟨[], hreadings, rfl, hrest⟩⟩

theorem endsAt_note {n : Note} {r : Except ServiceError Unit} :
    (note n : Action ο Unit).EndsAt hindered readings t sent t' r
      ↔ readings = [] ∧ sent = [] ∧ t' = t ∧ r = .ok () := Iff.rfl

/-- The clock is read first, and then what is done with the reading. -/
theorem endsAt_clock_bind {f : Instant → Action ο α} {r : Except ServiceError α} :
    (clock >>= f).EndsAt hindered readings t sent t' r
      ↔ ∃ now later, readings = now :: later ∧ (f now).EndsAt hindered later t sent t' r := Iff.rfl

/-- Only a hindered call is found to be cancelled, and then nothing more is done. -/
theorem endsAt_ensureLive_bind {f : Unit → Action ο α} {r : Except ServiceError α} :
    (ensureLive >>= f).EndsAt hindered readings t sent t' r
      ↔ (f ()).EndsAt hindered readings t sent t' r
        ∨ (hindered = true ∧ readings = [] ∧ sent = [] ∧ t' = t ∧ r = .error .cancelled) := Iff.rfl

/-- Only of a hindered call the caller is found to be gone. -/
theorem endsAt_send {item : ο} {r : Except ServiceError Unit} :
    (send item).EndsAt hindered readings t sent t' r
      ↔ readings = [] ∧ ((sent = [item] ∧ t' = t ∧ r = .ok ())
        ∨ (hindered = true ∧ sent = [] ∧ t' = t ∧ r = .error .cancelled)) := by
  constructor
  · rintro (⟨_, rfl, rfl, rfl, rfl, rfl⟩ | ⟨hhindered, rfl, rfl, rfl, rfl⟩)
    · exact ⟨rfl, .inl ⟨rfl, rfl, rfl⟩⟩
    · exact ⟨rfl, .inr ⟨hhindered, rfl, rfl, rfl⟩⟩
  · rintro ⟨rfl, ⟨rfl, rfl, rfl⟩ | ⟨hhindered, rfl, rfl, rfl⟩⟩
    · exact .inl ⟨[], rfl, rfl, rfl, rfl, rfl⟩
    · exact .inr ⟨hhindered, rfl, rfl, rfl, rfl⟩

/-! ### Without readings. -/

theorem ends_bind {a : Action ο β} {f : β → Action ο α} {r : Except ServiceError α} :
    (a >>= f).Ends hindered t sent t' r
      ↔ (∃ before t₁ b after, a.Ends hindered t before t₁ (.ok b) ∧ (f b).Ends hindered t₁ after t' r
            ∧ sent = before ++ after)
        ∨ ∃ e, a.Ends hindered t sent t' (.error e) ∧ r = .error e := by
  simp only [ends_iff_exists_endsAt, endsAt_bind]
  constructor
  · rintro ⟨_, ⟨first, before, t₁, b, second, after, ha, hf, _, hsent⟩ | ⟨e, ha, hr⟩⟩
    · exact .inl ⟨before, t₁, b, after, ⟨first, ha⟩, ⟨second, hf⟩, hsent⟩
    · exact .inr ⟨e, ⟨_, ha⟩, hr⟩
  · rintro (⟨before, t₁, b, after, ⟨first, ha⟩, ⟨second, hf⟩, hsent⟩ | ⟨e, ⟨readings, ha⟩, hr⟩)
    · exact ⟨_, .inl ⟨first, before, t₁, b, second, after, ha, hf, rfl, hsent⟩⟩
    · exact ⟨readings, .inr ⟨e, ha, hr⟩⟩

/-- After a check that changes nothing, more is done or the call ends with what the check has found. -/
theorem ends_check {a : Action ο β} {f : β → Action ο α} {c : Except ServiceError β}
    {r : Except ServiceError α} :
    (∀ sent t' r, a.Ends hindered t sent t' r ↔ sent = [] ∧ t' = t ∧ r = c) →
    ((a >>= f).Ends hindered t sent t' r
      ↔ match c with
        | .ok b => (f b).Ends hindered t sent t' r
        | .error e => sent = [] ∧ t' = t ∧ r = .error e) := by
  intro ha
  rw [ends_bind]
  simp only [ha]
  cases c with
  | ok b =>
    constructor
    · rintro (⟨_, _, _, after, ⟨rfl, rfl, hb⟩, hf, rfl⟩ | ⟨e, ⟨_, _, he⟩, _⟩)
      · cases hb
        exact hf
      · cases he
    · exact fun hf => .inl ⟨[], t, b, sent, ⟨rfl, rfl, rfl⟩, hf, rfl⟩
  | error e =>
    constructor
    · rintro (⟨_, _, _, _, ⟨_, _, hb⟩, _⟩ | ⟨_, ⟨rfl, rfl, he⟩, rfl⟩)
      · cases hb
      · cases he
        exact ⟨rfl, rfl, rfl⟩
    · rintro ⟨rfl, rfl, rfl⟩
      exact .inr ⟨e, ⟨rfl, rfl, rfl⟩, rfl⟩

theorem ends_pure {a : α} {r : Except ServiceError α} :
    (pure a : Action ο α).Ends hindered t sent t' r ↔ sent = [] ∧ t' = t ∧ r = .ok a := Iff.rfl

/-- An action after which nothing more is done than that its value is exchanged for another. -/
theorem ends_map {a : Action ο β} {f : β → Action ο α} {g : β → α} {r : Except ServiceError α}
    (hf : ∀ b t sent t' r, (f b).Ends hindered t sent t' r ↔ sent = [] ∧ t' = t ∧ r = .ok (g b)) :
    (a >>= f).Ends hindered t sent t' r ↔ ∃ r', a.Ends hindered t sent t' r' ∧ r = r'.map g := by
  rw [ends_bind]
  simp only [hf]
  constructor
  · rintro (⟨before, _, b, _, ha, ⟨rfl, rfl, rfl⟩, rfl⟩ | ⟨e, ha, rfl⟩)
    · rw [List.append_nil]
      exact ⟨.ok b, ha, rfl⟩
    · exact ⟨.error e, ha, rfl⟩
  · rintro ⟨e | b, ha, rfl⟩
    · exact .inr ⟨e, ha, rfl⟩
    · exact .inl ⟨sent, t', b, [], ha, ⟨rfl, rfl, rfl⟩, (List.append_nil _).symm⟩

/-- A user is looked up. -/
theorem ends_get {id : UInt32} {r : Except ServiceError (Operation.get id).Outcome} :
    (attempt (.get id) : Action ο (Operation.get id).Outcome).Ends hindered t sent t' r
      ↔ sent = [] ∧ t' = t ∧ r = .ok (t.fetch id) := by
  show (∃ _ : Instant, sent = [] ∧ t' = t ∧ r = .ok (t.fetch id)) ↔ _
  rw [exists_const]

theorem ends_store {op : Operation} {r : Except ServiceError op.Reply} :
    (store op : Action ο op.Reply).Ends hindered t sent t' r
      ↔ ∃ now, sent = [] ∧ t' = (t.perform now op).2
          ∧ r = (t.perform now op).1.mapError ServiceError.ofStore := by
  refine exists_congr fun now => ?_
  cases (t.perform now op).1 <;> exact Iff.rfl

theorem ends_note {n : Note} {r : Except ServiceError Unit} :
    (note n : Action ο Unit).Ends hindered t sent t' r ↔ sent = [] ∧ t' = t ∧ r = .ok () := Iff.rfl

/-- Only a hindered call is found to be cancelled, and then nothing more is done. -/
theorem ends_ensureLive_bind {f : Unit → Action ο α} {r : Except ServiceError α} :
    (ensureLive >>= f).Ends hindered t sent t' r
      ↔ (f ()).Ends hindered t sent t' r
        ∨ (hindered = true ∧ sent = [] ∧ t' = t ∧ r = .error .cancelled) := Iff.rfl

/-- Only of a hindered call the caller is found to be gone. -/
theorem ends_send {item : ο} {r : Except ServiceError Unit} :
    (send item).Ends hindered t sent t' r
      ↔ (sent = [item] ∧ t' = t ∧ r = .ok ())
        ∨ (hindered = true ∧ sent = [] ∧ t' = t ∧ r = .error .cancelled) := by
  refine or_congr_left ⟨?_, ?_⟩
  · rintro ⟨_, rfl, rfl, rfl, rfl⟩
    exact ⟨rfl, rfl, rfl⟩
  · rintro ⟨rfl, rfl, rfl⟩
    exact ⟨[], rfl, rfl, rfl, rfl⟩

end Action

end UserDirectory.Call
