import UserDirectory.Proofs.Concurrency.Execution
import UserDirectory.Proofs.Concurrency.Upkeep
/-!
# Sessions

Calls that are made in one world, in whatever manner, and looked at in whatever turns.  What they do to
the store is what calls do that go on at the same time, so all that is known of these is known of
sessions.

Main statements:
  * `Session.Runs.shows`: a session is a view of calls that go on at the same time;
  * `Session.wellKept`: the store of a session is well kept.
-/

namespace UserDirectory.Service

open UserDirectory.Call
open UserDirectory.Store (Table)

/-! ## §1. Steps of one call among others. -/

namespace System

variable {s s' s'' : System}

theorem Runs.trans {trace trace' : List Event} (h : s.Runs trace s') (h' : s'.Runs trace' s'') :
    s.Runs (trace ++ trace') s'' := by
  induction h' with
  | refl =>
    rw [List.append_nil]
    exact h
  | step _ hstep ih =>
    rw [← List.append_assoc]
    exact .step ih hstep

/-- What one call does by itself, the others doing nothing meanwhile. -/
theorem runs_of_course {t t' : Table} {r : Request} {c c' : Course r} {trace : List Transaction}
    (h : Course.Runs t c trace t' c') {calls : List Ongoing} {i : Nat}
    (hi : calls[i]? = some ⟨r, c⟩) :
    ∃ trace', Runs ⟨t, calls⟩ trace' ⟨t', calls.set i ⟨r, c'⟩⟩ := by
  induction h generalizing calls with
  | refl =>
    obtain ⟨hlt, hget⟩ := List.getElem?_eq_some_iff.1 hi
    refine ⟨[], ?_⟩
    rw [← hget, List.set_getElem_self]
    exact .refl
  | step hstep _ ih =>
    obtain ⟨hlt, _⟩ := List.getElem?_eq_some_iff.1 hi
    obtain ⟨trace', hruns⟩ := ih (List.getElem?_set_self hlt)
    rw [List.set_set] at hruns
    exact ⟨_, (Runs.refl.step (.go hi hstep)).trans hruns⟩

end System

/-! ## §2. Sessions. -/

/-- A world and the calls that have been made in it. -/
structure Session where
  world : World
  calls : List (Σ r : Request, r.Exchange)

namespace Session

/-- What can happen in a session. -/
inductive Step (s : Session) : Session → Prop
  /-- another call is made, in whatever manner and by whomever -/
  | make (r : Request) (manner : Manner) (cancelAt : Option Nat) (context : Context) (tie : Tie)
      (cancelled : Bool) (outbound : Outbound r.method.Response) :
      Step s ⟨s.world, s.calls ++ [⟨r, .start manner cancelAt (.start r.handler r.inbound
        { CallState.start context tie outbound s.world.clock with cancelled })⟩]⟩
  /-- one of the calls does all that it can do at this instant -/
  | settle {i : Nat} {r : Request} {e : r.Exchange} (hi : s.calls[i]? = some ⟨r, e⟩) :
      Step s ⟨(e.settle s.world).2, s.calls.set i ⟨r, (e.settle s.world).1⟩⟩
  /-- somebody who waits for a call loses patience -/
  | giveUp {i : Nat} {r : Request} {e : r.Exchange} (hi : s.calls[i]? = some ⟨r, e⟩) :
      Step s ⟨(e.giveUp s.world).2, s.calls.set i ⟨r, (e.giveUp s.world).1⟩⟩
  /-- time goes by, or anything else happens that does not concern the store -/
  | elapse (world : World) (h : world.backend = s.world.backend) : Step s ⟨world, s.calls⟩

/-- Any number of steps. -/
inductive Runs (s : Session) : Session → Prop
  | refl : Runs s s
  | step {s' s'' : Session} (h : Runs s s') (hs : s'.Step s'') : Runs s s''

/-- A session is a view of calls that go on at the same time. -/
structure Shows (s : Session) (y : System) : Prop where
  table : s.world.Holds y.table
  calls : y.calls = s.calls.map fun c => ⟨c.1, c.2.course⟩
  isOf : ∀ c ∈ s.calls, Request.Exchange.IsOf c.1 c.2 ∧ c.2.state.hold.Harmless

variable {s s' : Session} {y : System}

/-- What one call does in a session it does among the calls that go on at the same time. -/
theorem Shows.set (h : s.Shows y) {i : Nat} {r : Request} {e : r.Exchange}
    (hi : s.calls[i]? = some ⟨r, e⟩) {x : r.Exchange × World}
    (hx : Request.Exchange.Follows y.table e.course x) :
    ∃ trace y', y.Runs trace y' ∧ Shows ⟨x.2, s.calls.set i ⟨r, x.1⟩⟩ y' := by
  obtain ⟨_, t', hw, hs, hof, hruns⟩ := hx
  have hcall : y.calls[i]? = some ⟨r, e.course⟩ := by
    rw [h.calls, List.getElem?_map, hi]
    rfl
  obtain ⟨trace, hsystem⟩ := System.runs_of_course hruns hcall
  refine ⟨trace, _, hsystem, hw, ?_, fun c hc => ?_⟩
  · rw [List.map_set, h.calls]
  · rcases List.mem_or_eq_of_mem_set hc with hc | rfl
    · exact h.isOf c hc
    · exact ⟨hof, hs⟩

/-- A step of a session is a number of steps of calls that go on at the same time. -/
theorem Shows.step (h : s.Shows y) (hs : s.Step s') :
    ∃ trace y', y.Runs trace y' ∧ s'.Shows y' := by
  cases hs with
  | make r manner cancelAt context tie cancelled outbound =>
    -- whoever makes the call and however: it is at its start
    refine ⟨_, _, System.Runs.refl.step (.begin r), h.table, ?_, fun c hc => ?_⟩
    · rw [List.map_append, h.calls]
      rfl
    · rcases List.mem_append.1 hc with hc | hc
      · exact h.isOf c hc
      · rw [List.mem_singleton.1 hc]
        exact ⟨⟨⟨rfl, rfl⟩, rfl⟩, fun f hf => by cases hf⟩
  | settle hi =>
    obtain ⟨hof, hharmless⟩ := h.isOf _ (List.mem_of_getElem? hi)
    exact h.set hi (Request.Exchange.settle_follows hof h.table hharmless)
  | giveUp hi =>
    obtain ⟨hof, hharmless⟩ := h.isOf _ (List.mem_of_getElem? hi)
    exact h.set hi (Request.Exchange.giveUp_follows hof h.table hharmless)
  | elapse world hbackend =>
    -- no call goes on
    exact ⟨[], y, .refl, h.table.of_backend hbackend, h.calls, h.isOf⟩

/-- Whatever happens in a session is a run of calls that go on at the same time. -/
theorem Runs.shows (h : s.Runs s') (hs : s.Shows y) : ∃ trace y', y.Runs trace y' ∧ s'.Shows y' := by
  induction h with
  | refl => exact ⟨[], y, .refl, hs⟩
  | step _ hstep ih =>
    obtain ⟨trace, y', hruns, hshows⟩ := ih
    obtain ⟨trace', y'', hruns', hshows'⟩ := hshows.step hstep
    exact ⟨_, y'', hruns.trans hruns', hshows'⟩

/-- The store of a session that began with an empty store in memory is well kept. -/
theorem wellKept {world : World} (hempty : world.Holds SortedMap.empty) (h : Runs ⟨world, []⟩ s) :
    ∃ t, s.world.Holds t ∧ WellKept t := by
  have hstart : Shows ⟨world, []⟩ System.empty := ⟨hempty, rfl, fun c hc => by cases hc⟩
  obtain ⟨trace, y, hruns, hshows⟩ := h.shows hstart
  have hreachable : y.Reachable := ⟨trace, hruns⟩
  exact ⟨y.table, hshows.table, hreachable.wellKept⟩

end Session

end UserDirectory.Service
