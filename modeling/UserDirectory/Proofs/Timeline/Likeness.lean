import UserDirectory.Proofs.Call.Likeness
import UserDirectory.Timeline.Exchange
/-!
# Likeness in the course of time

Two timelines with the same plans, whose worlds are like each other, stay so while calls go on, while
the snapshot is refreshed and while nothing but time goes on.

Main statements:
  * `Activity.Keeps.run`: what is kept at every instant is kept in the course of time;
  * `call_like`: calls that are alike are told alike.
-/

namespace UserDirectory.Timeline

open UserDirectory.Call
open UserDirectory.Store (StoreError)

variable {l : Likeness} {σ ι ο α : Type}

/-! ## §1. What is kept in time. -/

/-- An activity keeps its states and two timelines in a relation: from one that holds before something
is done to one that holds after it and until the clock goes on. -/
structure Activity.Keeps (a : Activity σ) (S : σ → σ → Prop)
    (Before After : Timeline → Timeline → Prop) : Prop where
  settle {s s' : σ} {t t' : Timeline} (hs : S s s') (ht : Before t t') :
    S (Timeline.settle a s t).1 (Timeline.settle a s' t').1
      ∧ After (Timeline.settle a s t).2 (Timeline.settle a s' t').2
  wait {t t' : Timeline} (ht : After t t') (now : Nat) :
    Before (t.mapWorld fun w => { w with clock := now })
      (t'.mapWorld fun w => { w with clock := now })
  isDone {s s' : σ} (hs : S s s') : a.isDone s' = a.isDone s
  dues {s s' : σ} {t t' : Timeline} (hs : S s s') (ht : After t t') :
    Timeline.dues a s' t' = Timeline.dues a s t

/-- What is kept at every instant is kept in the course of time. -/
theorem Activity.Keeps.run {a : Activity σ} {S : σ → σ → Prop}
    {Before After : Timeline → Timeline → Prop} (h : a.Keeps S Before After) (now last : Nat)
    {s s' : σ} {t t' : Timeline} (hs : S s s')
    (ht : Before (t.mapWorld fun w => { w with clock := now })
      (t'.mapWorld fun w => { w with clock := now })) :
    S (run a s t now last).1 (run a s' t' now last).1
      ∧ After (run a s t now last).2 (run a s' t' now last).2 := by
  -- induction on the time that is left
  induction hn : last - now using Nat.strongRecOn generalizing now s s' t t' with
  | _ n ih =>
    obtain ⟨hs₁, ht₁⟩ := h.settle hs ht
    unfold Timeline.run
    simp only [h.isDone hs₁, h.dues hs₁ ht₁]
    split
    · exact ⟨hs₁, ht₁⟩
    · split
      · rename_i hlt
        have hlater := lt_nextStop hlt (Timeline.dues a
          (Timeline.settle a s (t.mapWorld fun w => { w with clock := now })).1
          (Timeline.settle a s (t.mapWorld fun w => { w with clock := now })).2)
        refine ih _ ?_ _ hs₁ (h.wait ht₁ _) rfl
        omega
      · exact ⟨hs₁, ht₁⟩

/-! ## §2. Timelines that are like each other. -/

/-- Two timelines with the same plans, whose worlds are like each other. -/
structure Like (l : Likeness) (t t' : Timeline) : Prop where
  world : World.Like l t.world.gate t.world t'.world
  shutdowns : t'.shutdowns = t.shutdowns
  refresher : t'.refresher = t.refresher

section

variable {g : Option Gate} {w w' : World} {t t' : Timeline}

/-- What a refresh puts in place is the same in worlds that are like each other. -/
theorem installUsers_like (h : World.Like l g w w') (users : List User) :
    World.Like l (installUsers w users).2.gate (installUsers w users).2
      (installUsers w' users).2 := by
  obtain ⟨_, _, _, _, hengine, rfl⟩ := h
  exact ⟨rfl, _, _, _, hengine, rfl⟩

/-- A refresh goes on alike in worlds that are like each other. -/
theorem refresh_like (h : World.Like l g w w') (hold : Hold) :
    ∃ r r' w₁ w₁' hold₁, refresh w hold = (r, w₁, hold₁) ∧ refresh w' hold = (r', w₁', hold₁)
      ∧ SameWait l r r' ∧ World.Like l w₁.gate w₁ w₁' := by
  obtain ⟨r, r', w₁, w₁', hold₁, hx, hy, hr, h₁⟩ :=
    World.attempt_like h [.refresh] hold everyone
  have hsame : World.Like l w₁.gate w₁ w₁' := ⟨rfl, h₁.2⟩
  unfold refresh
  rw [hx, hy]
  cases hr with
  | waiting => exact ⟨_, _, _, _, _, rfl, rfl, .waiting, hsame⟩
  | ended hr =>
    cases hr with
    | error he => exact ⟨_, _, _, _, _, rfl, rfl, .ended (.error he), hsame⟩
    | ok users =>
      exact ⟨_, _, _, _, _, rfl, rfl, .ended (.ok _), installUsers_like hsame users⟩

theorem noteEnd_like (h : World.Like l g w w') {r r' : Except StoreError Nat}
    (hr : l.Outcomes r r') : World.Like l g (Refresher.noteEnd w r) (Refresher.noteEnd w' r') := by
  cases hr with
  | ok n => exact h
  | error he => exact h.write _ _ _ _

/-- Who refreshes again and again does the same in worlds that are like each other. -/
theorem goOn_like (n : Nat) (r : Refresher) (h : World.Like l w.gate w w') :
    (r.goOn n w').1 = (r.goOn n w).1
      ∧ World.Like l (r.goOn n w).2.gate (r.goOn n w).2 (r.goOn n w').2 := by
  induction n generalizing r w w' with
  | zero => exact ⟨rfl, h⟩
  | succ n ih =>
    unfold Refresher.goOn
    rw [h.clock]
    cases r.begin w.clock with
    | none => exact ⟨rfl, h⟩
    | some begun =>
      obtain ⟨hold, r₁⟩ := begun
      obtain ⟨ended, ended', w₁, w₁', hold₁, hx, hy, hended, h₁⟩ := refresh_like h hold
      simp only [hx, hy]
      cases hended with
      | waiting => exact ⟨rfl, h₁⟩
      | ended hr =>
        have hnoted := noteEnd_like h₁ hr
        refine ih _ ?_
        exact ⟨rfl, hnoted.2⟩

theorem refreshWhenDue_like (h : Like l t t') : Like l t.refreshWhenDue t'.refreshWhenDue := by
  unfold refreshWhenDue
  rw [h.refresher]
  cases hr : t.refresher with
  | none => exact h
  | some r =>
    obtain ⟨hsame, hworld⟩ := goOn_like ((t.world.clock + 1 - r.due) / r.period + 2) r h.world
    unfold Refresher.settle
    rw [h.world.clock]
    exact ⟨hworld, h.shutdowns, congrArg some hsame⟩

theorem shutDownWhenDue_like (h : Like l t t') :
    Like l t.shutDownWhenDue t'.shutDownWhenDue := by
  unfold shutDownWhenDue
  rw [h.world.clock, h.shutdowns]
  split
  · obtain ⟨_, _, _, _, hengine, hw⟩ := h.world
    refine ⟨?_, rfl, h.refresher⟩
    rw [hw]
    exact ⟨rfl, _, _, _, hengine, rfl⟩
  · exact h

/-- Timelines stay like each other when both are set to the same time on the clock. -/
theorem Like.setClock (h : Like l t t') (now : Nat) :
    Like l (t.mapWorld fun w => { w with clock := now })
      (t'.mapWorld fun w => { w with clock := now }) := by
  obtain ⟨_, _, _, _, hengine, hw⟩ := h.world
  refine ⟨?_, h.shutdowns, h.refresher⟩
  unfold mapWorld
  rw [hw]
  exact ⟨rfl, _, _, _, hengine, rfl⟩

/-- So they do when both are set to the same time on the wall. -/
theorem Like.setWall (h : Like l t t') (wall : Time.Instant) :
    Like l (t.mapWorld fun w => { w with wall }) (t'.mapWorld fun w => { w with wall }) := by
  obtain ⟨_, _, _, _, hengine, hw⟩ := h.world
  refine ⟨?_, h.shutdowns, h.refresher⟩
  unfold mapWorld
  rw [hw]
  exact ⟨rfl, _, _, _, hengine, rfl⟩

/-- Timelines stay like each other when their worlds are replaced by such worlds. -/
theorem Like.setWorld (h : Like l t t') (hw : World.Like l g w w') :
    Like l { t with world := w } { t' with world := w' } :=
  ⟨⟨rfl, hw.2⟩, h.shutdowns, h.refresher⟩

/-! ## §3. Calls in time. -/

/-- An activity does the same at an instant, if it does so in worlds that are like each other. -/
theorem settle_like {a : Activity σ} {S : σ → σ → Prop}
    (ha : ∀ {g w w' s s'}, World.Like l g w w' → S s s' →
      LikeEnd l g S (a.settle s w) (a.settle s' w')) {s s' : σ} (hs : S s s') (h : Like l t t') :
    S (settle a s t).1 (settle a s' t').1 ∧ Like l (settle a s t).2 (settle a s' t').2 := by
  have hdue := shutDownWhenDue_like h
  obtain ⟨s₁, s₁', w₁, w₁', hx, hy, hs₁, h₁⟩ := ha hdue.world hs
  unfold settle
  simp only [hx, hy]
  exact ⟨hs₁, refreshWhenDue_like (hdue.setWorld h₁)⟩

/-- Likeness is kept by what does the same in worlds that are like each other. -/
theorem keeps_like {a : Activity σ} {S : σ → σ → Prop}
    (ha : ∀ {g w w' s s'}, World.Like l g w w' → S s s' →
      LikeEnd l g S (a.settle s w) (a.settle s' w'))
    (hdone : ∀ {s s'}, S s s' → a.isDone s' = a.isDone s)
    (hdues : ∀ {s s'}, S s s' → a.dues s' = a.dues s) : a.Keeps S (Like l) (Like l) where
  settle hs ht := settle_like ha hs ht
  wait ht now := ht.setClock now
  isDone := hdone
  dues hs ht := by
    unfold dues
    rw [hdues hs, ht.shutdowns, ht.refresher]

theorem calling_keeps :
    (calling : Activity (Exchange ι ο σ α)).Keeps (Exchange.Like l) (Like l) (Like l) :=
  keeps_like (fun h he => Exchange.settle_like h he) (fun he => he.hasEnded) (fun he => he.dues)

theorem idle_keeps : Activity.idle.Keeps Eq (Like l) (Like l) :=
  keeps_like (fun h _ => ⟨_, _, _, _, rfl, rfl, rfl, h⟩) (fun _ => rfl) (fun _ => rfl)

/-- Timelines that are like each other are at the same millisecond. -/
theorem Like.clock (h : Like l t t') : t'.world.clock = t.world.clock := h.world.clock

/-- Calls that are alike are told alike in timelines that are like each other. -/
theorem call_like (h : Like l t t') {e e' : Exchange ι ο σ α} (he : Exchange.Like l e e')
    (patience : Nat) :
    (t'.call e' patience).1 = (t.call e patience).1
      ∧ Like l (t.call e patience).2 (t'.call e' patience).2 := by
  obtain ⟨he₁, h₁⟩ := calling_keeps.run t.world.clock (t.world.clock + patience) he (h.setClock _)
  unfold call runFor
  rw [h.clock]
  obtain ⟨e₂, e₂', w₂, w₂', hx, hy, he₂, h₂⟩ := Exchange.giveUp_like h₁.world he₁
  simp only [hx, hy]
  exact ⟨he₂.report, h₁.setWorld h₂⟩

/-- So does time go by in them. -/
theorem sleep_like (h : Like l t t') (ms : Nat) : Like l (t.sleep ms) (t'.sleep ms) := by
  unfold sleep runFor
  rw [h.clock]
  exact (idle_keeps.run _ _ rfl (h.setClock _)).2

end

end UserDirectory.Timeline
