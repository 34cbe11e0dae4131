import Mathlib.Logic.Function.Basic
import UserDirectory.Proofs.Concurrency.Interleaving
/-!
# Where a stored value comes from

A call that changes a user reads the user first and then writes back the whole of it.  So what it writes
continues the value that it has read, and not the one that it replaces.  The lineage of a value names the
calls that have had a part in it, the last one at the end.

All this is about calls that read and write one user.

Main statements:
  * `held_lineage_of_reading`: what a call holds is as it was when the call has read it;
  * `Paired.mem_lineage_or_overtaken`: a write is part of the lineage, unless another call has read
    before it and written after it.
-/

namespace UserDirectory.Service

open UserDirectory.Call
open UserDirectory.Store (Operation)

variable {trace init rest : List Event} {e : Event} {i : Nat}

/-! ## §1. Reading and writing. -/

/-- Whether an event has given a user. -/
def Event.isRead : Event → Bool
  | ⟨⟨.get _, .ok _⟩, _⟩ => true
  | _ => false

/-- Whether an event has replaced a user. -/
def Event.isWrite : Event → Bool
  | ⟨⟨.update _, .ok _⟩, _⟩ => true
  | _ => false

/-- A call has replaced a user. -/
def Wrote (i : Nat) (trace : List Event) : Prop := ∃ w ∈ trace, w.isWrite = true ∧ w.caller = i

theorem Wrote.append (h : Wrote i trace) (e : Event) : Wrote i (trace ++ [e]) := by
  obtain ⟨w, hmem, hw⟩ := h
  exact ⟨w, List.mem_append_left _ hmem, hw⟩

theorem Event.isWrite_eq_false (h : e.isRead = true) : e.isWrite = false := by
  obtain ⟨⟨op, outcome⟩, caller⟩ := e
  cases op with
  | get id => rfl
  | _ => cases h

/-- A call is about to write: the last that it has done is to read. -/
def Reading (trace : List Event) (i : Nat) : Prop :=
  ∃ before r after, trace = before ++ r :: after ∧ r.isRead = true ∧ r.caller = i
    ∧ ∀ x ∈ after, x.caller ≠ i

theorem Reading.of_isRead (h : e.isRead = true) : Reading (trace ++ [e]) e.caller :=
  ⟨trace, e, [], rfl, h, rfl, by simp⟩

theorem Reading.append (h : Reading trace i) (he : e.caller ≠ i) : Reading (trace ++ [e]) i := by
  obtain ⟨before, r, after, rfl, hr, hi, hafter⟩ := h
  refine ⟨before, r, after ++ [e], by simp, hr, hi, fun x hx => ?_⟩
  rcases List.mem_append.1 hx with hx | hx
  · exact hafter x hx
  · rw [List.mem_singleton.1 hx]
    exact he

/-- Every call that writes has read just before. -/
def Paired (trace : List Event) : Prop :=
  ∀ before e after, trace = before ++ e :: after → e.isWrite = true → Reading before e.caller

theorem Paired.nil : Paired [] := by
  intro before e after h
  simp at h

theorem Paired.of_append (h : Paired (init ++ rest)) : Paired init := by
  intro before e after hinit
  refine h before e (after ++ rest) ?_
  rw [hinit, List.append_assoc, List.cons_append]

theorem Paired.append (h : Paired trace) (he : e.isWrite = true → Reading trace e.caller) :
    Paired (trace ++ [e]) := by
  intro before e' after heq hwrite
  rcases List.eq_nil_or_concat after with rfl | ⟨after', last, rfl⟩
  · obtain ⟨rfl, hlast⟩ := List.append_inj' heq rfl
    cases hlast
    exact he hwrite
  · rw [List.concat_eq_append, ← List.cons_append, ← List.append_assoc] at heq
    obtain ⟨hinit, _⟩ := List.append_inj' heq rfl
    exact h before e' after' hinit hwrite

/-- A write of a call stands between what another call has read and what that one has written. -/
inductive Overtaken (i : Nat) : List Event → Prop
  | mk {r w u : Event} (a b c d : List Event) (hr : r.isRead = true) (hw : w.isWrite = true)
      (hu : u.isWrite = true) (hi : w.caller = i) (hne : r.caller ≠ i) (hsame : u.caller = r.caller)
      (hquiet : ∀ x ∈ b ++ c, x.caller ≠ r.caller) :
      Overtaken i (a ++ r :: b ++ w :: c ++ u :: d)

theorem Overtaken.append (h : Overtaken i init) (rest : List Event) : Overtaken i (init ++ rest) := by
  cases h with
  | mk a b c d hr hw hu hi hne hsame hquiet =>
    rw [List.append_assoc _ (_ :: d), List.cons_append]
    exact .mk a b c (d ++ rest) hr hw hu hi hne hsame hquiet

/-- Nobody can have overtaken a call that has written only at the very end. -/
theorem not_overtaken_of_last (init : List Event) (e : Event)
    (hinit : ∀ x ∈ init, x.isWrite = true → x.caller ≠ i) : ¬ Overtaken i (init ++ [e]) := by
  intro h
  generalize htrace : init ++ [e] = trace at h
  cases h with
  | @mk r w u a b c d hr hw hu hi hne hsame hquiet =>
    have hmem : w ∈ init := by
      have hdrop := congrArg List.dropLast htrace
      rw [List.dropLast_concat, List.dropLast_append_cons] at hdrop
      rw [hdrop]
      simp
    exact hinit w hmem hw hi

/-! ## §2. Lineages. -/

/-- The calls that have had a part in the stored value, and in the value that each call has read. -/
structure Lineage where
  current : List Nat
  held : Nat → List Nat

/-- What an event makes of the lineages. -/
def Lineage.next (l : Lineage) (e : Event) : Lineage :=
  if e.isRead then { l with held := Function.update l.held e.caller l.current }
  else if e.isWrite then { l with current := l.held e.caller ++ [e.caller] }
  else l

/-- The lineages after some events; at first nobody has had a part. -/
def lineage (trace : List Event) : Lineage := trace.foldl Lineage.next ⟨[], fun _ => []⟩

theorem lineage_append (trace : List Event) (e : Event) :
    lineage (trace ++ [e]) = (lineage trace).next e := by
  unfold lineage
  rw [List.foldl_append]
  rfl

theorem Lineage.next_of_isRead (l : Lineage) (h : e.isRead = true) :
    l.next e = ⟨l.current, Function.update l.held e.caller l.current⟩ := by
  unfold next
  rw [if_pos h]

theorem Lineage.next_of_isWrite (l : Lineage) (h : e.isWrite = true) :
    l.next e = ⟨l.held e.caller ++ [e.caller], l.held⟩ := by
  unfold next
  have hread : e.isRead ≠ true := by
    intro hread
    rw [e.isWrite_eq_false hread] at h
    cases h
  rw [if_neg hread, if_pos h]

/-- What the others do has no effect on what a call holds. -/
theorem Lineage.held_next (l : Lineage) (h : e.caller ≠ i) : (l.next e).held i = l.held i := by
  unfold next
  split
  · exact Function.update_of_ne h.symm _ _
  · split <;> rfl

theorem Lineage.current_next (l : Lineage) (h : e.isWrite = false) :
    (l.next e).current = l.current := by
  unfold next
  split
  · rfl
  · rw [h]
    rfl

/-- What a call holds is what was stored when the call has read it. -/
theorem held_lineage_of_reading {before after : List Event} {r : Event} (hr : r.isRead = true)
    (hi : r.caller = i) (hafter : ∀ x ∈ after, x.caller ≠ i) :
    (lineage (before ++ r :: after)).held i = (lineage before).current := by
  have key : ∀ (l : Lineage), (after.foldl Lineage.next l).held i = l.held i := by
    intro l
    induction after generalizing l with
    | nil => rfl
    | cons x rest ih =>
      rw [List.foldl_cons, ih fun y hy => hafter y (List.mem_cons_of_mem _ hy)]
      exact l.held_next (hafter x List.mem_cons_self)
  unfold lineage
  rw [List.foldl_append, List.foldl_cons, key, Lineage.next_of_isRead _ hr, ← hi]
  exact Function.update_self _ _ _

/-! ## §3. What can be lost. -/

/-- What is written after a read is overtaken when the reader writes. -/
theorem Overtaken.of_mem {before after : List Event} {r w : Event} (hr : r.isRead = true)
    (hafter : ∀ x ∈ after, x.caller ≠ r.caller) (hmem : w ∈ after) (hw : w.isWrite = true)
    (he : e.isWrite = true) (hsame : e.caller = r.caller) :
    Overtaken w.caller (before ++ r :: after ++ [e]) := by
  have hne : r.caller ≠ w.caller := (hafter w hmem).symm
  obtain ⟨b, c, rfl⟩ := List.append_of_mem hmem
  have hquiet : ∀ x ∈ b ++ c, x.caller ≠ r.caller := by
    intro x hx
    refine hafter x ?_
    rcases List.mem_append.1 hx with hx | hx
    · exact List.mem_append_left _ hx
    · exact List.mem_append_right _ (List.mem_cons_of_mem _ hx)
  rw [show before ++ r :: (b ++ w :: c) ++ [e] = before ++ r :: b ++ w :: c ++ e :: [] by simp]
  exact .mk before b c [] hr hw he rfl hne hsame hquiet

/-- Unless the last event writes, the lineage is the one before it. -/
theorem mem_lineage_append_of_not_isWrite (he : e.isWrite = false) (h : i ∈ (lineage init).current) :
    i ∈ (lineage (init ++ [e])).current := by
  rw [lineage_append, Lineage.current_next _ he]
  exact h

/-- Who writes last has a part in what is stored. -/
theorem mem_lineage_append_of_isWrite (he : e.isWrite = true) :
    e.caller ∈ (lineage (init ++ [e])).current := by
  rw [lineage_append, Lineage.next_of_isWrite _ he]
  exact List.mem_append_right _ List.mem_cons_self

/-- Who had a part in what the last writer has read has a part in what it writes. -/
theorem mem_lineage_of_reading {before after : List Event} {r : Event} (hr : r.isRead = true)
    (hafter : ∀ x ∈ after, x.caller ≠ e.caller) (he : e.isWrite = true) (hsame : r.caller = e.caller)
    (h : i ∈ (lineage before).current) :
    i ∈ (lineage (before ++ r :: after ++ [e])).current := by
  rw [lineage_append, Lineage.next_of_isWrite _ he, held_lineage_of_reading hr hsame hafter]
  exact List.mem_append_left _ h

/-- A call that has written is part of the lineage or has been overtaken. -/
theorem Paired.mem_lineage_or_overtaken (h : Paired trace)
    (hwrite : Wrote i trace) :
    i ∈ (lineage trace).current ∨ Overtaken i trace := by
  -- induction on the length: a value goes back to what was read, which may be long ago
  induction hn : trace.length using Nat.strongRecOn generalizing trace with
  | _ n ih =>
    obtain ⟨w, hmem, hw, rfl⟩ := hwrite
    have earlier : ∀ init rest, trace = init ++ rest → rest ≠ [] → w ∈ init →
        w.caller ∈ (lineage init).current ∨ Overtaken w.caller trace := by
      intro init rest heq hrest hinit
      have hlt : init.length < n := by
        rw [← hn, heq, List.length_append]
        have := List.length_pos_iff.2 hrest
        omega
      rw [heq] at h ⊢
      exact (ih _ hlt h.of_append ⟨w, hinit, hw, rfl⟩ rfl).imp_right fun ho => ho.append rest
    rcases List.eq_nil_or_concat trace with rfl | ⟨init, e, htrace⟩
    · cases hmem
    rw [List.concat_eq_append] at htrace
    have hlast : w ∈ init ∨ w = e := by
      rw [htrace] at hmem
      simpa using hmem
    rcases hlast with hinit | rfl
    · by_cases he : e.isWrite = true
      · obtain ⟨before, r, after, rfl, hr, hsame, hafter⟩ := h init e [] htrace he
        rcases List.mem_append.1 hinit with hbefore | hrest
        · -- the last writer has read it, and continues it
          obtain hcur | ho := earlier before (r :: after ++ [e]) (by simp [htrace]) (by simp) hbefore
          · rw [htrace]
            exact .inl (mem_lineage_of_reading hr hafter he hsame hcur)
          · exact .inr ho
        · rcases List.mem_cons.1 hrest with rfl | hmid
          · rw [w.isWrite_eq_false hr] at hw
            cases hw
          · -- the write stands after what the last writer has read
            rw [htrace]
            refine .inr (.of_mem hr ?_ hmid hw he hsame.symm)
            rw [hsame]
            exact hafter
      · obtain hcur | ho := earlier init [e] htrace (by simp) hinit
        · rw [htrace]
          exact .inl (mem_lineage_append_of_not_isWrite (Bool.eq_false_iff.2 he) hcur)
        · exact .inr ho
    · rw [htrace]
      exact .inl (mem_lineage_append_of_isWrite hw)

end UserDirectory.Service
