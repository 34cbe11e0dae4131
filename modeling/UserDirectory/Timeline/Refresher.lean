import UserDirectory.Call.World
/-!
# Refreshing the snapshot

The snapshot that decides about methods is made anew from the stored users, on demand or every so many
milliseconds.  A refresh that fails leaves the snapshot that is there.

Main statement: `refresh_gate_of_error`, a refresh that fails changes nothing about who is let through.
-/

namespace UserDirectory.Timeline

open UserDirectory.Access (Snapshot)
open UserDirectory.Call (Hold World)
open UserDirectory.Store (ListFilter Operation StoreError)

/-! ## §1. One refresh. -/

/-- What a refresh asks the store for. -/
def everyone : Operation := .list .everyone

/-- Puts the snapshot of some users in place: how many users it is about. -/
def installUsers (w : World) (users : List User) : Nat × World :=
  let snapshot := Snapshot.ofUsers users
  (snapshot.userCount,
    (w.install snapshot).write [.refresh] [.snapshotRefreshed snapshot.userCount])

/-- Goes on with a refresh: how it ended, if it did. -/
def refresh (w : World) (h : Hold) : Option (Except StoreError Nat) × World × Hold :=
  match w.attempt [.refresh] h everyone with
  | (none, w, h) => (none, w, h)
  | (some (.error e), w, h) => (some (.error e), w, h)
  | (some (.ok (users : List User)), w, h) =>
    let (count, w) := installUsers w users
    (some (.ok count), w, h)

theorem undergo_gate (w : World) (spans : List Telemetry.Span) (op : Operation)
    (f : Store.Fault) : (w.undergo spans op f).2.gate = w.gate := by
  simp only [World.undergo]
  split <;> split <;> rfl

theorem askOnce_gate (w : World) (h : Hold) (op : Operation) :
    (w.askOnce h op).2.1.gate = w.gate := by
  simp only [World.askOnce]
  split <;> rfl

theorem attempt_gate (w : World) (spans : List Telemetry.Span) (h : Hold) (op : Operation) :
    (w.attempt spans h op).2.1.gate = w.gate := by
  have hask := askOnce_gate w h op
  simp only [World.attempt]
  split
  · rw [undergo_gate, hask]
  · exact hask

/-- A refresh that fails changes nothing about who is let through. -/
theorem refresh_gate_of_error {w : World} {h : Hold} {e : StoreError}
    (he : (refresh w h).1 = some (.error e)) : (refresh w h).2.1.gate = w.gate := by
  have hgate := attempt_gate w [.refresh] h everyone
  revert he
  simp only [refresh]
  split <;> simp_all

/-! ## §2. Refreshing again and again. -/

/-- Who refreshes the snapshot every so many milliseconds. -/
structure Refresher where
  period : Nat
  /-- the millisecond of the next refresh -/
  due : Nat
  /-- what holds up the refresh that is going on, if one is -/
  current : Option Hold

namespace Refresher

/-- Refreshes every so many milliseconds, the first time after so many. -/
def start (every now : Nat) : Refresher := ⟨max every 1, now + max every 1, none⟩

/-- How a refresh ended is noted where it failed. -/
def noteEnd (w : World) : Except StoreError Nat → World
  | .ok _ => w
  | .error e => w.write [] [.refreshFailed e]

/-- Goes on with the refresh that is going on, or begins the one that is due. -/
def begin (r : Refresher) (now : Nat) : Option (Hold × Refresher) :=
  match r.current with
  | some h => some (h, r)
  | none => if r.due ≤ now then some (.none_, { r with due := r.due + r.period }) else none

/-- Goes on until there is nothing to do at this instant, with at most so many refreshes. -/
def goOn : Nat → Refresher → World → Refresher × World
  | 0, r, w => (r, w)
  | n + 1, r, w =>
    match r.begin w.clock with
    | none => (r, w)
    | some (h, r) =>
      match refresh w h with
      | (none, w, h) => ({ r with current := some h }, w)
      | (some ended, w, _) => goOn n { r with current := none } (noteEnd w ended)

/-- Does all that is to be done at this instant: the refreshes that are due, also those that have been
missed while one was held up. -/
def settle (r : Refresher) (w : World) : Refresher × World :=
  -- one for each period that has gone by, one for the refresh going on, one to see that none is left
  r.goOn ((w.clock + 1 - r.due) / r.period + 2) w

/-- The milliseconds at which it may go on by itself. -/
def dues (r : Refresher) : List Nat :=
  match r.current with
  | some h => h.wake.toList
  | none => [r.due]

/-- Whether a refresh is going on. -/
def isBusy (r : Refresher) : Bool := r.current.isSome

end Refresher

end UserDirectory.Timeline
