import UserDirectory.Proofs.Call.Unheeded
import UserDirectory.Proofs.Timeline.Likeness
/-!
# What nobody heeds in the course of time

A call that goes on in time does the same in worlds that differ in the log and the metrics only, and it
makes no difference whether a shutdown that is due has been seen to.  Nobody refreshes the snapshot here.

Main statement: `call_alike`, a call and what is waited for it are the same.
-/

namespace UserDirectory.Timeline

open UserDirectory.Call

variable {g : Option Gate} {t t' t'' : Timeline} {ι ο σ α : Type}

/-! ## §1. Timelines that are alike. -/

/-- Two timelines with the same plans, whose worlds are alike. -/
structure Alike (g : Option Gate) (t t' : Timeline) : Prop where
  world : World.Alike g t.world t'.world
  shutdowns : t'.shutdowns = t.shutdowns
  unrefreshed : t.refresher = none
  unrefreshed' : t'.refresher = none

/-- Two timelines that are alike once the shutdown that is due has been seen to. -/
def SoonAlike (g : Option Gate) (t t' : Timeline) : Prop :=
  Alike g t.shutDownWhenDue t'.shutDownWhenDue

theorem Alike.symm (h : Alike g t t') : Alike g t' t :=
  ⟨h.world.symm, h.shutdowns.symm, h.unrefreshed', h.unrefreshed⟩

theorem Alike.trans (h : Alike g t t') (h' : Alike g t' t'') : Alike g t t'' :=
  ⟨h.world.trans h'.world, h'.shutdowns.trans h.shutdowns, h.unrefreshed, h'.unrefreshed'⟩

theorem Alike.soon (h : Alike g t t') : SoonAlike g t t' := by
  unfold SoonAlike shutDownWhenDue
  rw [h.world.clock, h.shutdowns]
  split
  · refine ⟨?_, rfl, h.unrefreshed, h.unrefreshed'⟩
    obtain ⟨hg, _, _, hw⟩ := h.world
    rw [hw]
    exact ⟨hg, _, _, rfl⟩
  · exact h

theorem SoonAlike.symm (h : SoonAlike g t t') : SoonAlike g t' t := Alike.symm h

theorem SoonAlike.trans (h : SoonAlike g t t') (h' : SoonAlike g t' t'') : SoonAlike g t t'' :=
  Alike.trans h h'

/-- To see to a shutdown that is due changes nothing else. -/
theorem shutDownWhenDue_cases (t : Timeline) :
    t.shutDownWhenDue.world.clock = t.world.clock ∧ t.shutDownWhenDue.world.gate = t.world.gate
      ∧ t.shutDownWhenDue.world.wall = t.world.wall
      ∧ t.shutDownWhenDue.world.backend = t.world.backend
      ∧ t.shutDownWhenDue.world.metrics = t.world.metrics
      ∧ t.shutDownWhenDue.refresher = t.refresher := by
  unfold shutDownWhenDue
  split
  · exact ⟨rfl, rfl, rfl, rfl, rfl, rfl⟩
  · exact ⟨rfl, rfl, rfl, rfl, rfl, rfl⟩

/-- Without a shutdown that is due there is nothing to see to. -/
theorem shutDownWhenDue_of_not_due (h : t.shutdowns.any (· ≤ t.world.clock) = false) :
    t.shutDownWhenDue = t := by
  unfold shutDownWhenDue
  rw [h]
  rfl

/-- A shutdown that has been seen to is not due any more. -/
theorem not_due_shutDownWhenDue (t : Timeline) :
    t.shutDownWhenDue.shutdowns.any (· ≤ t.world.clock) = false := by
  cases h : t.shutdowns.any (· ≤ t.world.clock) with
  | false =>
    rw [shutDownWhenDue_of_not_due h]
    exact h
  | true =>
    unfold shutDownWhenDue
    rw [if_pos h, List.any_eq_false]
    intro ms hmem hle
    have hlater := (List.mem_filter.1 hmem).2
    simp only [decide_eq_true_eq] at hle hlater
    omega

theorem shutDownWhenDue_idem (t : Timeline) :
    t.shutDownWhenDue.shutDownWhenDue = t.shutDownWhenDue := by
  refine shutDownWhenDue_of_not_due ?_
  rw [(shutDownWhenDue_cases t).1]
  exact not_due_shutDownWhenDue t

theorem SoonAlike.of_shutDownWhenDue (hg : t.world.gate = g) (hr : t.refresher = none) :
    SoonAlike g t t.shutDownWhenDue := by
  unfold SoonAlike
  rw [shutDownWhenDue_idem]
  have hsame := shutDownWhenDue_cases t
  exact ⟨.refl (hsame.2.1.trans hg), rfl, hsame.2.2.2.2.2.trans hr, hsame.2.2.2.2.2.trans hr⟩

theorem SoonAlike.clock (h : SoonAlike g t t') : t'.world.clock = t.world.clock := by
  rw [← (shutDownWhenDue_cases t').1, ← (shutDownWhenDue_cases t).1]
  exact h.world.clock

theorem SoonAlike.backend (h : SoonAlike g t t') : t'.world.backend = t.world.backend := by
  rw [← (shutDownWhenDue_cases t').2.2.2.1, ← (shutDownWhenDue_cases t).2.2.2.1]
  exact h.world.backend

/-- The clock on the wall has nothing to do with shutdowns. -/
theorem shutDownWhenDue_wall (t : Timeline) (wall : Time.Instant) :
    (t.mapWorld fun w => { w with wall }).shutDownWhenDue
      = t.shutDownWhenDue.mapWorld fun w => { w with wall } := by
  unfold shutDownWhenDue mapWorld
  simp only
  split
  · rfl
  · rfl

/-- Timelines stay alike when their clocks on the wall are set to the same time. -/
theorem Alike.setWall (h : Alike g t t') (wall : Time.Instant) :
    Alike g (t.mapWorld fun w => { w with wall }) (t'.mapWorld fun w => { w with wall }) := by
  refine ⟨?_, h.shutdowns, h.unrefreshed, h.unrefreshed'⟩
  obtain ⟨hg, _, _, hw⟩ := h.world
  unfold mapWorld
  rw [hw]
  exact ⟨hg, _, _, rfl⟩

theorem SoonAlike.setWall (h : SoonAlike g t t') (wall : Time.Instant) :
    SoonAlike g (t.mapWorld fun w => { w with wall }) (t'.mapWorld fun w => { w with wall }) := by
  unfold SoonAlike
  rw [shutDownWhenDue_wall, shutDownWhenDue_wall]
  exact Alike.setWall h wall

/-- Timelines that are alike stay so when their clocks go on to the same millisecond. -/
theorem Alike.setClock (h : Alike g t t') (now : Nat) :
    Alike g (t.mapWorld fun w => { w with clock := now })
      (t'.mapWorld fun w => { w with clock := now }) := by
  refine ⟨?_, h.shutdowns, h.unrefreshed, h.unrefreshed'⟩
  obtain ⟨hg, _, _, hw⟩ := h.world
  unfold mapWorld
  rw [hw]
  exact ⟨hg, _, _, rfl⟩

/-! ## §2. Calls in time. -/

/-- Without anyone who refreshes there is nothing to refresh. -/
theorem refreshWhenDue_of_none (h : t.refresher = none) : t.refreshWhenDue = t := by
  unfold refreshWhenDue
  rw [h]

/-- A call that goes on keeps timelines alike, also when a shutdown is due in one of them. -/
theorem calling_keeps_alike :
    (calling : Activity (Exchange ι ο σ α)).Keeps (Exchange.Like .same) (SoonAlike g) (Alike g) where
  settle {e e' t t'} he h := by
    obtain ⟨e₁, e₁', w₁, w₁', hx, hy, he₁, h₁⟩ :=
      Exchange.settle_like (World.alike_iff.1 h.world) he
    unfold settle calling
    simp only [hx, hy]
    rw [refreshWhenDue_of_none (t := { t.shutDownWhenDue with world := w₁ }) h.unrefreshed,
      refreshWhenDue_of_none (t := { t'.shutDownWhenDue with world := w₁' }) h.unrefreshed']
    exact ⟨he₁, World.alike_iff.2 h₁, h.shutdowns, h.unrefreshed, h.unrefreshed'⟩
  wait h now := (h.setClock now).soon
  isDone he := he.hasEnded
  dues he h := by
    unfold dues
    rw [h.shutdowns, h.unrefreshed, h.unrefreshed']
    show Exchange.dues _ ++ _ ++ _ = _
    rw [he.dues]
    rfl

/-- A call and what is waited for it are the same in timelines that are alike. -/
theorem call_alike (h : SoonAlike g t t') (e : Exchange ι ο σ α) (patience : Nat) :
    ∃ a t₁ t₁', t.call e patience = (a, t₁) ∧ t'.call e patience = (a, t₁') ∧ Alike g t₁ t₁' := by
  have hclock := h.clock
  have hstill : SoonAlike g (t.mapWorld fun w => { w with clock := t.world.clock })
      (t'.mapWorld fun w => { w with clock := t.world.clock }) := by
    have hsame : (t'.mapWorld fun w => { w with clock := t.world.clock }) = t' := by
      rw [← hclock]
      rfl
    rw [hsame]
    exact h
  obtain ⟨he₁, h₁⟩ :=
    calling_keeps_alike.run t.world.clock (t.world.clock + patience) e.like_self hstill
  obtain ⟨e₂, e₂', w₂, w₂', hx, hy, he₂, h₂⟩ :=
    Exchange.giveUp_like (World.alike_iff.1 h₁.world) he₁
  unfold call runFor
  rw [hclock]
  simp only [hx, hy]
  rw [he₂.report]
  exact ⟨_, _, _, rfl, rfl, World.alike_iff.2 h₂, h₁.shutdowns, h₁.unrefreshed, h₁.unrefreshed'⟩

end UserDirectory.Timeline
