import UserDirectory.Timeline.Refresher
/-!
# Time that jumps

The clock stands still while there is anything to do and then jumps to the next instant at which
something happens by itself.  What is done is an activity: it does at an instant what can be done and
tells when it may go on.  Beside it go on the shutdown of the server, if one is planned, and the
refreshing of the snapshot.

Main statements: `lt_nextStop` and `nextStop_le`, a jump goes forward and not beyond the end.
-/

namespace UserDirectory

open UserDirectory.Call (World)

/-- A world in time. -/
structure Timeline where
  world : World
  /-- the milliseconds at which the server is to be shut down -/
  shutdowns : List Nat
  refresher : Option Timeline.Refresher

namespace Timeline

/-! ## §1. Jumps. -/

/-- The next of some milliseconds after `now`, at most the last one that matters. -/
def nextStop (now last : Nat) : List Nat → Nat
  | [] => last
  | t :: more =>
    let rest := nextStop now last more
    if now < t ∧ t < rest then t else rest

/-- A jump goes forward. -/
theorem lt_nextStop {now last : Nat} (h : now < last) (l : List Nat) : now < nextStop now last l := by
  induction l with
  | nil => exact h
  | cons t more ih =>
    simp only [nextStop]
    split
    · omega
    · exact ih

/-- A jump does not go beyond the end. -/
theorem nextStop_le (now last : Nat) (l : List Nat) : nextStop now last l ≤ last := by
  induction l with
  | nil => exact Nat.le_refl last
  | cons t more ih =>
    simp only [nextStop]
    split <;> omega

/-! ## §2. Activities. -/

/-- What can go on in time. -/
structure Activity (σ : Type) where
  /-- does what can be done at an instant -/
  settle : σ → World → σ × World
  /-- the milliseconds at which it may go on by itself -/
  dues : σ → List Nat
  /-- whether there is nothing left to wait for -/
  isDone : σ → Bool

/-- Nothing goes on but time. -/
def Activity.idle : Activity Unit where
  settle s w := (s, w)
  dues _ := []
  isDone _ := false

/-! ## §3. Going on. -/

variable {σ : Type}

/-- A world at its beginning. -/
def start (world : World) : Timeline := ⟨world, [], none⟩

/-- The timeline with its world changed. -/
def mapWorld (t : Timeline) (f : World → World) : Timeline := { t with world := f t.world }

/-- Shuts the server down if it is time to. -/
def shutDownWhenDue (t : Timeline) : Timeline :=
  if t.shutdowns.any (· ≤ t.world.clock) then
    { t with
      world := { t.world with shutdown := true }
      shutdowns := t.shutdowns.filter (t.world.clock < ·) }
  else t

/-- Refreshes the snapshot if it is time to. -/
def refreshWhenDue (t : Timeline) : Timeline :=
  match t.refresher with
  | none => t
  | some r =>
    let (r, world) := r.settle t.world
    { t with world, refresher := some r }

/-- Does all that can be done at this instant: first the shutdown, then the activity, then the
refreshing. -/
def settle (a : Activity σ) (s : σ) (t : Timeline) : σ × Timeline :=
  let t := t.shutDownWhenDue
  -- what is done sees the snapshot from before a refresh that is due at the same instant
  let (s, world) := a.settle s t.world
  (s, { t with world }.refreshWhenDue)

/-- The milliseconds at which anything may go on by itself. -/
def dues (a : Activity σ) (s : σ) (t : Timeline) : List Nat :=
  a.dues s ++ t.shutdowns ++ (t.refresher.map Refresher.dues).getD []

/-- Lets the activity go on from `now` until it is done, at the longest until `last`. -/
def run (a : Activity σ) (s : σ) (t : Timeline) (now last : Nat) : σ × Timeline :=
  let (s, t) := settle a s (t.mapWorld fun w => { w with clock := now })
  if a.isDone s then (s, t)
  else if now < last then run a s t (nextStop now last (dues a s t)) last
  else (s, t)
termination_by last - now
decreasing_by
  have hlt : now < last := by assumption
  have := lt_nextStop hlt (dues a s t)
  omega

/-- Lets an activity go on until it is done, at the longest for some milliseconds. -/
def runFor (a : Activity σ) (s : σ) (t : Timeline) (ms : Nat) : σ × Timeline :=
  t.run a s t.world.clock (t.world.clock + ms)

/-- Lets some milliseconds go by. -/
def sleep (t : Timeline) (ms : Nat) : Timeline := (t.runFor .idle () ms).2

/-- Plans the shutdown of the server in some milliseconds. -/
def shutDownIn (t : Timeline) (ms : Nat) : Timeline :=
  { t with shutdowns := t.shutdowns ++ [t.world.clock + ms] }

end Timeline

end UserDirectory
