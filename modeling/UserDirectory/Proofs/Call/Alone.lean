import Mathlib.Logic.Relation
import UserDirectory.Proofs.Call.Turns
/-!
# Calls that have a store for themselves

Where nobody else writes to the store, the table in it is what the call has made of it, and what the
store answers follows from the table and the clock.

Main statements:
  * `Alone.Shows.goesBy`: a call that is executed in a world that nobody else writes to does steps, and what
    it reads of the clock the clock on the wall has shown;
  * `Alone.inevitably_of_wellFounded`, `Alone.inevitably_of_weight`: a call comes to its end if every step
    leads down to something less.
-/

namespace UserDirectory.Call

open UserDirectory.Store (Table)
open UserDirectory.Time (Instant)

variable {ι ο σ α : Type}

/-! ## §1. Runs. -/

/-- A call, and the table of the store that it has for itself. -/
structure Alone (ι ο σ α : Type) where
  life : Life ι ο σ α
  table : Table

namespace Alone

/-- A call that has not begun. -/
def start (handler : Handler ι ο σ α) (served : Bool) (inbound : Inbound ι) (outbound : Outbound ο)
    (table : Table) : Alone ι ο σ α :=
  ⟨.start handler served inbound outbound, table⟩

/-- A step of the call; what it asks of the store is answered from the table. -/
def Step (s s' : Alone ι ο σ α) : Prop :=
  ∃ label, s.life.Step label s'.life ∧ Answers s.table label.toList s'.table

/-- Any number of steps. -/
def Runs (s s' : Alone ι ο σ α) : Prop := Relation.ReflTransGen Step s s'

/-- The call has done some deeds, and the store has answered from the table on the way. -/
structure Does (s : Alone ι ο σ α) (deeds : List Deed) (s' : Alone ι ο σ α) : Prop where
  life : s.life.Runs deeds s'.life
  answers : Answers s.table deeds s'.table

/-- A step for which neither the store nor the clock is asked. -/
theorem Step.of_life {l l' : Life ι ο σ α} {label : Option Deed} (h : l.Step label l')
    (hquiet : label.bind Deed.reading = none) (t : Table) : Step ⟨l, t⟩ ⟨l', t⟩ := by
  refine ⟨label, h, (answers_iff_eq ?_).2 rfl⟩
  cases label with
  | none => rfl
  | some d => exact List.filterMap_cons_none hquiet

section

variable {s s' s'' : Alone ι ο σ α} {deeds deeds' : List Deed}

theorem Does.refl : s.Does [] s := ⟨.refl, rfl⟩

theorem Does.trans (h : s.Does deeds s') (h' : s'.Does deeds' s'') : s.Does (deeds ++ deeds') s'' :=
  ⟨h.life.trans h'.life, answers_append.2 ⟨_, h.answers, h'.answers⟩⟩

/-- What every step keeps of what has been done so far, any number of steps keep. -/
theorem Does.keeps {I : List Deed → Alone ι ο σ α → Prop}
    (hstep : ∀ done label s s', I done s → s.life.Step label s'.life →
      Answers s.table label.toList s'.table → I (done ++ label.toList) s')
    (done : List Deed) (hI : I done s) (h : s.Does deeds s') : I (done ++ deeds) s' := by
  obtain ⟨l, t⟩ := s
  obtain ⟨l', t'⟩ := s'
  obtain ⟨hlife, ht⟩ := h
  change l.Runs deeds l' at hlife
  induction hlife generalizing t done with
  | refl =>
    cases ht
    rwa [List.append_nil]
  | @step l l₁ l₂ label deeds hone _ ih =>
    -- the store answers this deed from the table, and the others from what that has left
    obtain ⟨t₁, hlabel, hrest⟩ := answers_append.1 ht
    rw [← List.append_assoc]
    exact ih _ t₁ (hstep done label ⟨l, t⟩ ⟨l₁, t₁⟩ hI hone hlabel) hrest

theorem Does.runs (h : s.Does deeds s') : s.Runs s' :=
  Does.keeps (I := fun _ => s.Runs) (fun _ label _ _ hruns hstep ht => hruns.tail ⟨label, hstep, ht⟩) []
    .refl h

end

/-! ## §2. Calls that are executed. -/

/-- A call and the table of its store are those of a call that is executed in a world. -/
structure Shows (s : Alone ι ο σ α) (e : Exchange ι ο σ α) (w : World) : Prop where
  call : e.Shown s.life
  table : w.Holds s.table
  harmless : e.state.hold.Harmless

end Alone

/-- A call goes on and its caller too, and time goes by; nobody else touches the store. -/
inductive Exchange.Goes (x : Exchange ι ο σ α × World) : Exchange ι ο σ α × World → Prop
  | refl : Goes x x
  | move {y z : Exchange ι ο σ α × World} (h : Goes x y) (hmove : Exchange.Move y z) : Goes x z
  | elapse {e : Exchange ι ο σ α} {w : World} (h : Goes x (e, w)) (w' : World)
      (hbackend : w'.backend = w.backend) : Goes x (e, w')

/-- The same, with what the clock on the wall has shown before and after each move. -/
inductive Exchange.GoesBy (x : Exchange ι ο σ α × World) :
    List (Instant × Instant) → Exchange ι ο σ α × World → Prop
  | refl : GoesBy x [] x
  | move {shown : List (Instant × Instant)} {y z : Exchange ι ο σ α × World} (h : GoesBy x shown y)
      (hmove : Exchange.Move y z) : GoesBy x (shown ++ [(y.2.wall, z.2.wall)]) z
  | elapse {shown : List (Instant × Instant)} {e : Exchange ι ο σ α} {w : World}
      (h : GoesBy x shown (e, w)) (w' : World) (hbackend : w'.backend = w.backend) :
      GoesBy x shown (e, w')

theorem Exchange.goes_iff_exists_goesBy {x y : Exchange ι ο σ α × World} :
    Exchange.Goes x y ↔ ∃ shown, Exchange.GoesBy x shown y := by
  constructor
  · intro h
    induction h with
    | refl => exact ⟨[], .refl⟩
    | move _ hmove ih =>
      obtain ⟨shown, ih⟩ := ih
      exact ⟨_, ih.move hmove⟩
    | elapse _ w' hbackend ih =>
      obtain ⟨shown, ih⟩ := ih
      exact ⟨shown, ih.elapse w' hbackend⟩
  · rintro ⟨shown, h⟩
    induction h with
    | refl => exact .refl
    | move _ hmove ih => exact ih.move hmove
    | elapse _ w' hbackend ih => exact ih.elapse w' hbackend

/-- Readings of a clock that is read now and then, each time between two instants that it has shown. -/
inductive ReadIn : List (Instant × Instant) → List Instant → Prop
  | nil : ReadIn [] []
  | concat {shown : List (Instant × Instant)} {before after : Instant} {readings more : List Instant}
      (h : ReadIn shown readings) (hmore : Reads before more after) :
      ReadIn (shown ++ [(before, after)]) (readings ++ more)

namespace Alone

section

variable {s : Alone ι ο σ α} {e e' : Exchange ι ο σ α} {w w' : World} {t : Table}

/-- A call that is made through the chain in a world with a store of its own. -/
theorem shows_start (hw : w.Holds t) (handler : Handler ι ο σ α) {manner : Manner}
    (hchained : manner ≠ .bare) (cancelAt : Option Nat) (inbound : Inbound ι) (context : Context)
    (tie : Tie) (cancelled : Bool) (outbound : Outbound ο) (hthere : outbound.readerGone = false) :
    (start handler (decide (manner = .served)) inbound outbound t).Shows
      (.start manner cancelAt (.start handler inbound
        { CallState.start context tie outbound w.clock with cancelled })) w := by
  refine ⟨Exchange.shown_start handler hchained cancelAt inbound context tie cancelled outbound w.clock
    fun hgone => ?_, hw, nofun⟩
  exact absurd (hthere.symm.trans hgone) Bool.false_ne_true

/-- What a call does by a move it does by steps, and what it reads is what the clock shows. -/
theorem Shows.move (h : s.Shows e w) (hmove : Exchange.Move (e, w) (e', w')) :
    ∃ deeds s', s.Does deeds s' ∧ Reads w.wall (deeds.filterMap Deed.reading) w'.wall
      ∧ s'.Shows e' w' := by
  obtain ⟨deeds, l, hlife, hleads, hshown⟩ := hmove.lives h.call
  obtain ⟨t', hw', hharmless, hanswers, hreads⟩ := hleads.table _ h.table h.harmless
  exact ⟨deeds, ⟨l, t'⟩, ⟨hlife, hanswers⟩, hreads, hshown, hw', hharmless⟩

/-- Time goes by, and what the store has stays. -/
theorem Shows.elapse (h : s.Shows e w) (hbackend : w'.backend = w.backend) : s.Shows e w' :=
  ⟨h.call, h.table.of_backend hbackend, h.harmless⟩

/-- What a call does that is executed it does by steps. -/
theorem Shows.goesBy {shown : List (Instant × Instant)} (h : s.Shows e w)
    (hgoes : Exchange.GoesBy (e, w) shown (e', w')) :
    ∃ deeds s', s.Does deeds s' ∧ ReadIn shown (deeds.filterMap Deed.reading) ∧ s'.Shows e' w' := by
  generalize hy : (e', w') = y at hgoes
  induction hgoes generalizing e' w' with
  | refl =>
    cases hy
    exact ⟨[], s, .refl, .nil, h⟩
  | @move shown y z _ hmove ih =>
    cases hy
    obtain ⟨deeds, s₁, hdoes, hread, hshows⟩ := @ih y.1 y.2 rfl
    obtain ⟨more, s₂, hdoes', hread', hshows'⟩ := hshows.move hmove
    refine ⟨deeds ++ more, s₂, hdoes.trans hdoes', ?_, hshows'⟩
    -- what is read by this move lies between what the clock shows before and after it
    rw [List.filterMap_append]
    exact hread.concat hread'
  | @elapse shown e₁ w₁ _ w₂ hbackend ih =>
    cases hy
    obtain ⟨deeds, s₁, hdoes, hread, hshows⟩ := ih rfl
    exact ⟨deeds, s₁, hdoes, hread, hshows.elapse hbackend⟩

theorem Shows.goes (h : s.Shows e w) (hgoes : Exchange.Goes (e, w) (e', w')) :
    ∃ s', s.Runs s' ∧ s'.Shows e' w' := by
  obtain ⟨shown, hgoesBy⟩ := Exchange.goes_iff_exists_goesBy.1 hgoes
  obtain ⟨deeds, s', hdoes, _, hshows⟩ := h.goesBy hgoesBy
  exact ⟨s', hdoes.runs, hshows⟩

/-- A call that is dropped leaves the table as the call has made it. -/
theorem Shows.drop (h : s.Shows e w) (hrunning : e.hasEnded = false) :
    ∃ s', s.Runs s' ∧ s'.life.spot = .dropped ∧ (e.drop w).2.Holds s'.table := by
  obtain ⟨deeds, l, hlife, hleads, hspot, _⟩ := Exchange.drop_lives h.call hrunning
  obtain ⟨t', hw', _, hanswers, _⟩ := hleads.table _ h.table h.harmless
  exact ⟨⟨l, t'⟩, Does.runs ⟨hlife, hanswers⟩, hspot, hw'⟩

end

/-! ## §3. Ends. -/

/-- Nothing has kept a call from coming to its end: it has not been cancelled, its caller has not left
before the end, it has not been dropped, and if it has begun, the chain has let it through. -/
structure Calm (s : Alone ι ο σ α) : Prop where
  uncancelled : s.life.stance.cancelled = false
  heard : ∀ how, s.life.stance.outbound.reader.ending = some how → how = .closed
  kept : s.life.spot ≠ .dropped
  admitted : s.life.spot ≠ .fresh → s.life.admitted = true

/-- However a call goes on as long as it is calm, it comes to where `Q` holds. -/
inductive Inevitably (Q : Alone ι ο σ α → Prop) : Alone ι ο σ α → Prop
  | now {s : Alone ι ο σ α} (h : Q s) : Inevitably Q s
  | later {s : Alone ι ο σ α} (hcan : ∃ s', s.Step s' ∧ s'.Calm)
      (hall : ∀ s', s.Step s' → s'.Calm → Inevitably Q s') : Inevitably Q s

/-- A call comes to where `Q` holds if before that there is always a step, and every step leads down to
something less. -/
theorem inevitably_of_wellFounded {β : Type} {less : β → β → Prop} (hwf : WellFounded less)
    {Q : Alone ι ο σ α → Prop} {I : Alone ι ο σ α → β → Prop}
    (hcan : ∀ s b, I s b → Q s ∨ ∃ s', s.Step s' ∧ s'.Calm)
    (hall : ∀ s b, I s b → ¬ Q s → ∀ s', s.Step s' → s'.Calm → Q s' ∨ ∃ c, less c b ∧ I s' c)
    {s : Alone ι ο σ α} {b : β} (h : I s b) : Inevitably Q s := by
  induction b using hwf.induction generalizing s with
  | _ b ih =>
    -- by induction on what is left, which every step before `Q` makes less
    by_cases hQ : Q s
    · exact .now hQ
    · refine .later ((hcan s b h).resolve_left hQ) fun s' hstep hcalm => ?_
      rcases hall s b h hQ s' hstep hcalm with hQ' | ⟨c, hless, hI⟩
      · exact .now hQ'
      · exact ih c hless hI

/-- A call comes to where `Q` holds if before that there is always a step, and every step uses up some
of a weight. -/
theorem inevitably_of_weight {Q : Alone ι ο σ α → Prop} {I : Alone ι ο σ α → Nat → Prop}
    (hcan : ∀ s n, I s n → Q s ∨ ∃ s', s.Step s' ∧ s'.Calm)
    (hall : ∀ s n, I s n → ¬ Q s → ∀ s', s.Step s' → s'.Calm → Q s' ∨ ∃ m, m < n ∧ I s' m)
    {s : Alone ι ο σ α} {n : Nat} (h : I s n) : Inevitably Q s :=
  inevitably_of_wellFounded Nat.lt_wfRel.wf hcan hall h

end Alone

end UserDirectory.Call
