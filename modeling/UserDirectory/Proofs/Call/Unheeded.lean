import UserDirectory.Proofs.Call.Likeness
/-!
# What nobody heeds

Calls write in the log and are counted in the metrics, and none of them ever looks there.  Worlds that
differ in nothing else are like each other in the strictest way: their stores are the same, and then
every program goes on alike.  Nor does a call change who is let through.

Main statements:
  * `World.alike_iff`: worlds that differ in the log and the metrics at most are like each other;
  * `Exchange.like_self`: where stores are the same, every call is like itself.
-/

namespace UserDirectory.Call

/-- Two worlds with a gate that differ in the log and the metrics at most. -/
def World.Alike (g : Option Gate) (w w' : World) : Prop :=
  w.gate = g ∧ ∃ log metrics, w' = { w with log, metrics }

/-- Stores and errors that are the same. -/
def Likeness.same : Likeness where
  engines := Eq
  errors := Eq
  errors_refl _ := rfl
  perform {x _} h now op := by
    subst h
    exact ⟨.refl (fun _ => rfl) _, rfl⟩

section

variable {g : Option Gate} {w w' w'' : World} {ι ο σ α : Type}

theorem World.Alike.refl (h : w.gate = g) : World.Alike g w w := ⟨h, w.log, w.metrics, rfl⟩

theorem World.Alike.symm (h : World.Alike g w w') : World.Alike g w' w := by
  obtain ⟨hg, log, metrics, rfl⟩ := h
  exact ⟨hg, w.log, w.metrics, rfl⟩

theorem World.Alike.trans (h : World.Alike g w w') (h' : World.Alike g w' w'') :
    World.Alike g w w'' := by
  obtain ⟨hg, _, _, rfl⟩ := h
  obtain ⟨_, log, metrics, rfl⟩ := h'
  exact ⟨hg, log, metrics, rfl⟩

theorem World.Alike.backend (h : World.Alike g w w') : w'.backend = w.backend := by
  obtain ⟨_, _, _, rfl⟩ := h
  rfl

theorem World.Alike.clock (h : World.Alike g w w') : w'.clock = w.clock := by
  obtain ⟨_, _, _, rfl⟩ := h
  rfl

/-- Worlds that differ in the log and the metrics at most are like each other. -/
theorem World.alike_iff : World.Alike g w w' ↔ World.Like .same g w w' := by
  constructor
  · rintro ⟨hg, log, metrics, rfl⟩
    exact ⟨hg, log, metrics, w.backend.engine, Eq.refl w.backend.engine, rfl⟩
  · rintro ⟨hg, log, metrics, engine, hengine, rfl⟩
    have hsame : w.backend.engine = engine := hengine
    rw [← hsame]
    exact ⟨hg, log, metrics, rfl⟩

/-! Where stores give the same, everything is like itself. -/

theorem Program.like_self (p : Program ο α) : Program.Like .same Eq p p :=
  .self (fun _ _ h => (h : _ = _)) p

theorem Stage.like_self (stage : Stage ο σ α) : Stage.Like .same stage stage := by
  cases stage with
  | awaiting kept => exact .awaiting kept
  | handling p => exact .handling p.like_self
  | closing p => exact .closing p.like_self

theorem Running.like_self (c : Running ι ο σ α) : Running.Like .same c c :=
  ⟨⟨fun _ _ => Program.like_self _, fun _ => Program.like_self _, Stage.like_self _⟩, rfl,
    Stage.like_self _, rfl, rfl⟩

/-- Where stores are the same, every call is like itself. -/
theorem Exchange.like_self (e : Exchange ι ο σ α) : Exchange.Like .same e e := by
  refine ⟨rfl, rfl, rfl, ?_⟩
  cases e.phase with
  | fresh c => exact .fresh c.like_self
  | running c => exact .running c.like_self
  | ended r s => exact .ended r s

end

end UserDirectory.Call
