import UserDirectory.Proofs.Call.Deeds
/-!
# Passes inside of passes

A handler that ends every pass it begins, and that does not write the lines of the chain itself, keeps
the books of its call in order: whatever becomes of the call, every pass has one beginning, is recorded
once and has one end, and it lies within the pass around it.

Main statements:
  * `Program.nested_bind`: programs one after another;
  * `Life.Step.booked`, `Life.Runs.booked`: what a step and what a run of a call keeps;
  * `Life.Booked.balance`: what that comes to in numbers;
  * `Life.Booked.recorded_eq`: passes are recorded as they are noted to have ended.
-/

namespace UserDirectory.Call

open UserDirectory.Service (ServiceError)
open UserDirectory.Time (Instant)

variable {ι ο σ α β : Type}

/-! ## §1. Programs that end what they begin. -/

/-- A program that has this many passes of its own open ends them all, and writes no line about the
beginning or end of a pass. -/
def Program.Nested : Program ο α → Nat → Prop
  | .done _, k => k = 0
  | .store _ next, k => ∀ r, (next r).Nested k
  | .send _ next, k => ∀ there, (next there).Nested k
  | .live next, k => ∀ alive, (next alive).Nested k
  | .clock next, k => ∀ now, (next now).Nested k
  | .note n next, k => n.isOfPass = false ∧ next.Nested k
  | .pause _ next, k => next.Nested k
  | .cancel next, k => next.Nested k
  | .claims next, k => ∀ c, (next c).Nested k
  | .enter next, k => (next none).Nested (k + 1) ∧ ∀ cause, (next (some cause)).Nested k
  | .leave _ next, k => ∃ outer, k = outer + 1 ∧ next.Nested outer

/-- Of two programs one after another, the second may end what was open before the first. -/
theorem Program.nested_bind {p : Program ο β} {f : β → Program ο α} {k j : Nat}
    (hp : p.Nested k) (hf : ∀ b, (f b).Nested j) : (p.bind f).Nested (k + j) := by
  induction p generalizing k with
  | done b =>
    cases hp
    rw [Nat.zero_add]
    exact hf b
  | store op next ih => exact fun r => ih r (hp r)
  | send item next ih => exact fun there => ih there (hp there)
  | live next ih => exact fun alive => ih alive (hp alive)
  | clock next ih => exact fun now => ih now (hp now)
  | note n next ih => exact ⟨hp.1, ih hp.2⟩
  | pause ms next ih => exact ih hp
  | cancel next ih => exact ih hp
  | claims next ih => exact fun c => ih c (hp c)
  | enter next ih =>
    refine ⟨?_, fun cause => ih (some cause) (hp.2 cause)⟩
    have hin := ih none hp.1
    rwa [Nat.add_right_comm] at hin
  | leave failure next ih =>
    obtain ⟨inner, rfl, hnext⟩ := hp
    exact ⟨inner + j, by omega, ih hnext⟩

/-- What is left of a handler ends the passes it has open. -/
def Stage.Nested : Stage ο σ α → Nat → Prop
  | awaiting _, k => k = 0
  | handling p, k => p.Nested k
  | closing p, k => p.Nested k

/-- A handler ends every pass it begins. -/
structure Handler.Proper (h : Handler ι ο σ α) : Prop where
  onItem : ∀ kept x, (h.onItem kept x).Nested 0
  onEnd : ∀ kept, (h.onEnd kept).Nested 0
  start : h.start.Nested 0

/-! ## §2. Books in order. -/

/-- A deed that is not about passes. -/
inductive Deed.IsAside : Deed → Prop
  | transact (now : Instant) (x : Transaction) : IsAside (.transact now x)
  | read (now : Instant) : IsAside (.read now)
  | tell (n : Telemetry.Note) (h : n.isOfPass = false) : IsAside (.tell n)

/-- Passes that have ended, one after another, each with those inside of it. -/
inductive Passes : List Deed → Prop
  | none : Passes []
  | aside {d : Deed} {deeds : List Deed} (hd : d.IsAside) (h : Passes deeds) : Passes (d :: deeds)
  | pass {inner after : List Deed} (millis : Nat) (e : PassEnd) (hinner : Passes inner)
      (hafter : Passes after) : Passes (Deed.opening ++ inner ++ Deed.closing millis e ++ after)

/-- Passes of which this many are open, each inside of the one before. -/
inductive Layers : Nat → List Deed → Prop
  | outside {deeds : List Deed} (h : Passes deeds) : Layers 0 deeds
  | inside {k : Nat} {deeds inner : List Deed} (h : Layers k deeds) (hinner : Passes inner) :
      Layers (k + 1) (deeds ++ Deed.opening ++ inner)

theorem Passes.append {deeds more : List Deed} (h : Passes deeds) (hmore : Passes more) :
    Passes (deeds ++ more) := by
  induction h with
  | none => exact hmore
  | aside hd _ ih => exact .aside hd ih
  | pass millis e hinner _ _ ih =>
    rw [List.append_assoc]
    exact .pass millis e hinner ih

theorem Passes.of_isAside {d : Deed} (h : d.IsAside) : Passes [d] := .aside h .none

namespace Layers

variable {k : Nat} {deeds : List Deed}

theorem append {more : List Deed} (h : Layers k deeds) (hmore : Passes more) :
    Layers k (deeds ++ more) := by
  cases h with
  | outside h => exact .outside (h.append hmore)
  | inside h hinner =>
    rw [List.append_assoc]
    exact .inside h (hinner.append hmore)

/-- Another pass begins. -/
theorem begin (h : Layers k deeds) : Layers (k + 1) (deeds ++ Deed.opening) := by
  have hin := inside h .none
  rwa [List.append_nil] at hin

/-- The innermost pass ends. -/
theorem close (h : Layers (k + 1) deeds) (millis : Nat) (e : PassEnd) :
    Layers k (deeds ++ Deed.closing millis e) := by
  cases h with
  | inside h hinner =>
    have hpass := h.append (.pass millis e hinner .none)
    rw [List.append_nil] at hpass
    rw [List.append_assoc, List.append_assoc]
    rwa [List.append_assoc] at hpass

end Layers

/-! ## §3. The books of a call. -/

/-- Some passes of a call are open inside of the outermost, and the deeds and those owed are the
beginning of it and of these. -/
def Stance.Open (g : Stance ο) (deeds : List Deed) (k : Nat) : Prop :=
  g.depth = k + 1 ∧ ∃ inner, Layers k inner ∧ deeds ++ g.owed = Deed.opening ++ inner

/-- No pass of a call is open any more, and the deeds and those owed are one pass. -/
def Stance.Closed (g : Stance ο) (deeds : List Deed) (e : PassEnd) : Prop :=
  g.depth = 0 ∧ ∃ inner millis, Passes inner ∧
    deeds ++ g.owed = Deed.opening ++ inner ++ Deed.closing millis e

/-- The books of a call are in order: what it has done, and what it owes, are what belongs to a call that
has come so far. -/
def Spot.Booked : Spot ο σ α → Stance ο → List Deed → Prop
  | fresh, g, deeds => g.depth = 0 ∧ deeds ++ g.owed = []
  | going stage, g, deeds => ∃ k, g.Open deeds k ∧ stage.Nested k
  | ended r _, g, deeds => g.Closed deeds (.ofResult r)
  | dropped, g, deeds => (g.depth = 0 ∧ deeds ++ g.owed = []) ∨ g.Closed deeds .abandoned

/-- The books of a call are in order. -/
def Life.Booked (l : Life ι ο σ α) (deeds : List Deed) : Prop := l.spot.Booked l.stance deeds

section

variable {g g' : Stance ο} {deeds : List Deed} {k : Nat}

theorem Stance.open_begin (h : g.depth = 0) (hnone : deeds ++ g.owed = []) :
    g.begin.Open deeds 0 := by
  refine ⟨congrArg (· + 1) h, [], .outside .none, ?_⟩
  show deeds ++ (g.owed ++ Deed.opening) = _
  rw [← List.append_assoc, hnone]
  rfl

theorem Stance.Open.begin (h : g.Open deeds k) : g.begin.Open deeds (k + 1) := by
  obtain ⟨hdepth, inner, hinner, hdeeds⟩ := h
  refine ⟨congrArg (· + 1) hdepth, inner ++ Deed.opening, hinner.begin, ?_⟩
  show deeds ++ (g.owed ++ Deed.opening) = _
  rw [← List.append_assoc, hdeeds, List.append_assoc]

theorem Stance.close_of_depth (h : g.depth = k + 1) (millis : Nat) (e : PassEnd) :
    g.close millis e = { g with depth := k, owed := g.owed ++ Deed.closing millis e } := by
  unfold Stance.close
  rw [if_neg (by omega), h]
  rfl

/-- A pass inside of the outermost ends. -/
theorem Stance.Open.close (h : g.Open deeds (k + 1)) (millis : Nat) (e : PassEnd) :
    (g.close millis e).Open deeds k := by
  obtain ⟨hdepth, inner, hinner, hdeeds⟩ := h
  rw [close_of_depth hdepth]
  refine ⟨rfl, _, hinner.close millis e, ?_⟩
  rw [← List.append_assoc, hdeeds, List.append_assoc]

/-- The outermost pass ends. -/
theorem Stance.Open.close_outermost (h : g.Open deeds 0) (millis : Nat) (e : PassEnd) :
    (g.close millis e).Closed deeds e := by
  obtain ⟨hdepth, inner, hinner, hdeeds⟩ := h
  rw [close_of_depth hdepth]
  cases hinner with
  | outside hinner =>
    refine ⟨rfl, inner, millis, hinner, ?_⟩
    rw [← List.append_assoc, hdeeds]

/-- All passes inside of the outermost are given up. -/
theorem Stance.Open.abandon {times : List Nat} (h : g.Open deeds k) (htimes : times.length = k) :
    (g.abandon times).Open deeds 0 := by
  induction times generalizing g k with
  | nil =>
    cases htimes
    exact h
  | cons millis times ih =>
    cases htimes
    exact ih (h.close millis .abandoned) rfl

/-- All passes are given up. -/
theorem Stance.Open.abandon_outermost {times : List Nat} (h : g.Open deeds k)
    (htimes : times.length = k + 1) : (g.abandon times).Closed deeds .abandoned := by
  induction times generalizing g k with
  | nil => cases htimes
  | cons millis times ih =>
    cases k with
    | zero =>
      cases List.length_eq_zero_iff.1 (Nat.succ.inj htimes)
      exact h.close_outermost millis .abandoned
    | succ k => exact ih (h.close millis .abandoned) (Nat.succ.inj htimes)

/-- A deed that is not about passes changes nothing in the books. -/
theorem Stance.Open.aside {d : Deed} (h : g.Open deeds k) (hfree : g.owed = []) (hd : d.IsAside) :
    g.Open (deeds ++ [d]) k := by
  obtain ⟨hdepth, inner, hinner, hdeeds⟩ := h
  refine ⟨hdepth, inner ++ [d], hinner.append (.of_isAside hd), ?_⟩
  rw [hfree, List.append_nil] at hdeeds ⊢
  rw [hdeeds, List.append_assoc]

/-- Only what is open and what is owed counts. -/
theorem Stance.Open.of_eq (h : g.Open deeds k) (hdepth : g'.depth = g.depth)
    (howed : g'.owed = g.owed) : g'.Open deeds k := by
  unfold Stance.Open at h ⊢
  rwa [hdepth, howed]

/-- Whether a call has paid or owes makes no difference. -/
theorem Spot.Booked.of_eq {spot : Spot ο σ α} {deeds' : List Deed} (h : spot.Booked g deeds)
    (hdepth : g'.depth = g.depth) (howed : deeds' ++ g'.owed = deeds ++ g.owed) :
    spot.Booked g' deeds' := by
  cases spot with
  | fresh => exact ⟨hdepth.trans h.1, howed.trans h.2⟩
  | going stage =>
    obtain ⟨k, ⟨hopen, inner, hinner, hdeeds⟩, hstage⟩ := h
    exact ⟨k, ⟨hdepth.trans hopen, inner, hinner, howed.trans hdeeds⟩, hstage⟩
  | ended r unsent =>
    obtain ⟨hclosed, inner, millis, hinner, hdeeds⟩ := h
    exact ⟨hdepth.trans hclosed, inner, millis, hinner, howed.trans hdeeds⟩
  | dropped =>
    refine h.imp (fun h => ⟨hdepth.trans h.1, howed.trans h.2⟩) fun h => ?_
    obtain ⟨hclosed, inner, millis, hinner, hdeeds⟩ := h
    exact ⟨hdepth.trans hclosed, inner, millis, hinner, howed.trans hdeeds⟩

/-- A step of a program keeps the books in order. -/
theorem Program.Act.booked {p p' : Program ο α} {label : Option Deed} (hact : p.Act g label g' p')
    (hp : p.Nested k) (hfree : g.owed = []) (h : g.Open deeds k) :
    ∃ k', g'.Open (deeds ++ label.toList) k' ∧ p'.Nested k' := by
  have hsame : g.Open (deeds ++ []) k := by rwa [List.append_nil]
  cases hact with
  | store op next now r => exact ⟨k, h.aside hfree (.transact now _), hp r⟩
  | send item next hthere hroom => exact ⟨k, hsame.of_eq rfl rfl, hp true⟩
  | sendGone item next hgone => exact ⟨k, hsame, hp false⟩
  | live next alive halive => exact ⟨k, hsame, hp alive⟩
  | clock next now => exact ⟨k, h.aside hfree (.read now), hp now⟩
  | note n next => exact ⟨k, h.aside hfree (.tell n hp.1), hp.2⟩
  | pause ms next => exact ⟨k, hsame, hp⟩
  | cancel next => exact ⟨k, hsame.of_eq rfl rfl, hp⟩
  | claims next c => exact ⟨k, hsame, hp c⟩
  | enter next => exact ⟨k + 1, hsame.begin, hp.1⟩
  | enterDenied next cause millis => exact ⟨k, hsame.begin.close millis _, hp.2 cause⟩
  | leave failure next millis =>
    obtain ⟨outer, rfl, hnext⟩ := hp
    exact ⟨outer, hsame.close millis _, hnext⟩

end

section

variable {l l' : Life ι ο σ α} {deeds : List Deed}

/-- A step of a call keeps its books in order. -/
theorem Life.Step.booked {label : Option Deed} (hstep : l.Step label l') (hproper : l.handler.Proper)
    (h : l.Booked deeds) : l'.Booked (deeds ++ label.toList) := by
  have hsame : l.Booked (deeds ++ []) := by rwa [List.append_nil]
  unfold Life.Booked at h hsame ⊢
  cases hstep with
  | pay howed =>
    refine h.of_eq rfl ?_
    rw [howed, Option.toList_some, List.append_assoc]
    rfl
  | drift hdrift => cases hdrift <;> exact hsame.of_eq rfl rfl
  | begin hfree hspot =>
    rw [hspot] at hsame
    exact ⟨0, Stance.open_begin hsame.1 hsame.2, hproper.start⟩
  | deny hfree hspot cause millis =>
    rw [hspot] at hsame
    exact (Stance.open_begin hsame.1 hsame.2).close_outermost millis _
  | handle hfree hspot hact
  | close hfree hspot hact =>
    rw [hspot] at h
    obtain ⟨k, hopen, hp⟩ := h
    exact hact.booked hp hfree hopen
  | take hfree hspot harrivals =>
    rw [hspot] at hsame
    obtain ⟨k, hopen, rfl⟩ := hsame
    exact ⟨0, hopen, hproper.onItem _ _⟩
  | exhaust hfree hspot harrivals hsilent =>
    rw [hspot] at hsame
    obtain ⟨k, hopen, rfl⟩ := hsame
    exact ⟨0, hopen, hproper.onEnd _⟩
  | answered hfree hspot =>
    rw [hspot] at hsame
    obtain ⟨k, hopen, rfl⟩ := hsame
    exact ⟨0, hopen, rfl⟩
  -- where the call ends by itself, only the outermost pass is open
  | breakOff hfree hspot harrivals millis
  | stopTaking hfree hspot hcancelled millis
  | failed hfree hspot millis
  | finish hfree hspot millis =>
    rw [hspot] at hsame
    obtain ⟨k, hopen, rfl⟩ := hsame
    exact hopen.close_outermost millis _
  | cut hfree hspot hcancelled times htimes millis =>
    -- those inside of it are given up first
    rw [hspot] at hsame
    obtain ⟨k, hopen, _⟩ := hsame
    exact (hopen.abandon (by rw [htimes, hopen.1]; rfl)).close_outermost millis _
  | drop hfree hspot times htimes =>
    rcases hspot with hspot | ⟨stage, hspot⟩
    · -- it has not begun
      rw [hspot] at hsame
      cases List.length_eq_zero_iff.1 (htimes.trans hsame.1)
      exact .inl hsame
    · rw [hspot] at hsame
      obtain ⟨k, hopen, _⟩ := hsame
      exact .inr (hopen.abandon_outermost (htimes.trans hopen.1))
  | tellFailure hfree hspot hthere
  | tellNobody hfree hspot hgone =>
    rw [hspot] at hsame
    exact hsame
  | shut hfree hspot hthere hread => exact hsame.of_eq rfl rfl

/-- A run of a call keeps its books in order. -/
theorem Life.Runs.booked {more : List Deed} (hruns : l.Runs more l') (hproper : l.handler.Proper)
    (h : l.Booked deeds) : l'.Booked (deeds ++ more) := by
  induction hruns generalizing deeds with
  | refl => rwa [List.append_nil]
  | step hstep _ ih =>
    rw [← List.append_assoc]
    refine ih ?_ (hstep.booked hproper h)
    rw [hstep.kin.handler]
    exact hproper

end

/-! ## §4. In numbers. -/

namespace Deed

/-- A pass begins to count as in flight. -/
def isEntry : Deed → Bool
  | enter => true
  | _ => false

/-- A pass does not count as in flight any more. -/
def isExit : Deed → Bool
  | leave => true
  | _ => false

/-- A pass is recorded. -/
def isRecord : Deed → Bool
  | record .. => true
  | _ => false

/-- A pass is recorded as an error. -/
def isFailure : Deed → Bool
  | record _ failed => failed
  | _ => false

/-- The beginning of a pass is noted. -/
def isStartNote : Deed → Bool
  | tell .callStarted => true
  | _ => false

/-- The end of a pass is noted. -/
def isEndNote : Deed → Bool
  | tell (.callCompleted _) => true
  | tell (.callFailed ..) => true
  | tell (.callAbandoned _) => true
  | _ => false

/-- It is noted that a pass has ended without being completed. -/
def isFailureNote : Deed → Bool
  | tell (.callFailed ..) => true
  | tell (.callAbandoned _) => true
  | _ => false

/-- Whether a pass is recorded, and whether as an error. -/
def recorded? : Deed → Option Bool
  | record _ failed => some failed
  | _ => none

/-- Whether it is noted that a pass has ended, and whether as a failure. -/
def ended? (d : Deed) : Option Bool := d.told.bind Telemetry.Note.failure?

end Deed

/-- Of the passes that have begun this many have not ended; each that has begun has been noted as begun,
and each that has ended has been recorded and noted as ended, as a failure or not. -/
structure Balance (k : Nat) (deeds : List Deed) : Prop where
  entries : deeds.countP Deed.isEntry = deeds.countP Deed.isExit + k
  starts : deeds.countP Deed.isStartNote = deeds.countP Deed.isEntry
  records : deeds.countP Deed.isRecord = deeds.countP Deed.isExit
  ends : deeds.countP Deed.isEndNote = deeds.countP Deed.isExit
  failures : deeds.countP Deed.isFailure = deeds.countP Deed.isFailureNote
  /-- however far one looks, no more have ended than have begun -/
  orderly : ∀ n, (deeds.take n).countP Deed.isExit ≤ (deeds.take n).countP Deed.isEntry

namespace Balance

variable {k j : Nat} {deeds more : List Deed}

theorem nil : Balance 0 [] :=
  ⟨rfl, rfl, rfl, rfl, rfl, fun n => by rw [List.take_nil]; exact Nat.le_refl 0⟩

theorem append (h : Balance k deeds) (hmore : Balance j more) : Balance (k + j) (deeds ++ more) := by
  obtain ⟨hentries, hstarts, hrecords, hends, hfailures, horderly⟩ := h
  obtain ⟨hentries', hstarts', hrecords', hends', hfailures', horderly'⟩ := hmore
  refine ⟨?_, ?_, ?_, ?_, ?_, fun n => ?_⟩
  case refine_6 =>
    have hbefore := horderly n
    have hafter := horderly' (n - deeds.length)
    rw [List.take_append, List.countP_append, List.countP_append]
    omega
  all_goals
    rw [List.countP_append, List.countP_append]
    omega

/-- Where nothing ends, nothing can be out of order. -/
theorem orderly_of_forall (h : ∀ d ∈ deeds, d.isExit = false) (n : Nat) :
    (deeds.take n).countP Deed.isExit ≤ (deeds.take n).countP Deed.isEntry := by
  have hnone : (deeds.take n).countP Deed.isExit = 0 :=
    List.countP_eq_zero.2 fun d hd hexit => by
      rw [h d (List.mem_of_mem_take hd)] at hexit
      cases hexit
  omega

theorem opening : Balance 1 Deed.opening :=
  ⟨rfl, rfl, rfl, rfl, rfl, orderly_of_forall (by simp [Deed.opening, Deed.isExit])⟩

theorem of_isAside {d : Deed} (h : d.IsAside) : Balance 0 [d] := by
  have horderly : d.isExit = false → ∀ n, ([d].take n).countP Deed.isExit
      ≤ ([d].take n).countP Deed.isEntry := fun hd =>
    orderly_of_forall fun x hx => by rw [List.mem_singleton.1 hx]; exact hd
  cases h with
  | transact now x => exact ⟨rfl, rfl, rfl, rfl, rfl, horderly rfl⟩
  | read now => exact ⟨rfl, rfl, rfl, rfl, rfl, horderly rfl⟩
  | tell n h => cases n <;> first | exact ⟨rfl, rfl, rfl, rfl, rfl, horderly rfl⟩ | cases h

/-- The end of a pass closes what its beginning has opened. -/
theorem closing (h : Balance (k + 1) deeds) (millis : Nat) (e : PassEnd) :
    Balance k (deeds ++ Deed.closing millis e) := by
  obtain ⟨hentries, hstarts, hrecords, hends, hfailures, horderly⟩ := h
  have hsame : (Deed.closing millis e).countP Deed.isFailure
      = (Deed.closing millis e).countP Deed.isFailureNote := by cases e <;> rfl
  have hend : (Deed.closing millis e).countP Deed.isEndNote = 1 := by cases e <;> rfl
  have hstart : (Deed.closing millis e).countP Deed.isStartNote = 0 := by cases e <;> rfl
  have hentry : (Deed.closing millis e).countP Deed.isEntry = 0 := rfl
  have hexit : (Deed.closing millis e).countP Deed.isExit = 1 := rfl
  have hrecord : (Deed.closing millis e).countP Deed.isRecord = 1 := rfl
  refine ⟨?_, ?_, ?_, ?_, ?_, fun n => ?_⟩
  case refine_6 =>
    rw [List.take_append, List.countP_append, List.countP_append]
    by_cases hn : n ≤ deeds.length
    · have hbefore := horderly n
      rw [Nat.sub_eq_zero_of_le hn, List.take_zero]
      exact hbefore
    · -- the pass that ends was open
      have hsub : ((Deed.closing millis e).take (n - deeds.length)).countP Deed.isExit
          ≤ (Deed.closing millis e).countP Deed.isExit := (List.take_sublist _ _).countP_le
      rw [List.take_of_length_le (by omega)]
      omega
  all_goals
    rw [List.countP_append, List.countP_append]
    omega

end Balance

theorem Passes.balance {deeds : List Deed} (h : Passes deeds) : Balance 0 deeds := by
  induction h with
  | none => exact .nil
  | aside hd _ ih => exact (Balance.of_isAside hd).append ih
  | pass millis e _ _ ih ih' => exact ((Balance.opening.append ih).closing millis e).append ih'

theorem Layers.balance {k : Nat} {deeds : List Deed} (h : Layers k deeds) : Balance k deeds := by
  induction h with
  | outside h => exact h.balance
  | inside _ hinner ih => exact (ih.append .opening).append hinner.balance

/-- Of the passes in the books of a call, as many have not ended as are open. -/
theorem Life.Booked.balance {l : Life ι ο σ α} {deeds : List Deed} (h : l.Booked deeds) :
    Balance l.stance.depth (deeds ++ l.stance.owed) := by
  have hclosed : ∀ e, l.stance.Closed deeds e → Balance l.stance.depth (deeds ++ l.stance.owed) := by
    rintro e ⟨hdepth, inner, millis, hinner, hdeeds⟩
    rw [hdepth, hdeeds]
    exact (Balance.opening.append hinner.balance).closing millis e
  have hnone : l.stance.depth = 0 ∧ deeds ++ l.stance.owed = [] →
      Balance l.stance.depth (deeds ++ l.stance.owed) := by
    rintro ⟨hdepth, hdeeds⟩
    rw [hdepth, hdeeds]
    exact .nil
  unfold Life.Booked at h
  cases hspot : l.spot with
  | fresh =>
    rw [hspot] at h
    exact hnone h
  | going stage =>
    rw [hspot] at h
    obtain ⟨k, ⟨hdepth, inner, hinner, hdeeds⟩, _⟩ := h
    rw [hdepth, hdeeds, Nat.add_comm]
    exact Balance.opening.append hinner.balance
  | ended r unsent =>
    rw [hspot] at h
    exact hclosed _ h
  | dropped =>
    rw [hspot] at h
    exact h.elim hnone (hclosed _)

/-- Passes are recorded as they are noted to have ended, one after another. -/
theorem Passes.recorded_eq {deeds : List Deed} (h : Passes deeds) :
    deeds.filterMap Deed.recorded? = deeds.filterMap Deed.ended? := by
  induction h with
  | none => rfl
  | @aside d deeds hd _ ih =>
    -- what is not about passes neither records one nor notes the end of one
    have hrecorded : d.recorded? = Option.none := by cases hd <;> rfl
    have hended : d.ended? = Option.none := by
      cases hd with
      | @tell n hn => cases n <;> first | rfl | cases hn
      | _ => rfl
    rw [List.filterMap_cons_none hrecorded, List.filterMap_cons_none hended, ih]
  | pass millis e _ _ ih ih' =>
    simp only [List.filterMap_append, ih, ih']
    cases e <;> rfl

theorem Layers.recorded_eq {k : Nat} {deeds : List Deed} (h : Layers k deeds) :
    deeds.filterMap Deed.recorded? = deeds.filterMap Deed.ended? := by
  induction h with
  | outside h => exact h.recorded_eq
  | inside _ hinner ih =>
    simp only [List.filterMap_append, ih, hinner.recorded_eq]
    rfl

/-- So they are in the books of a call. -/
theorem Life.Booked.recorded_eq {l : Life ι ο σ α} {deeds : List Deed} (h : l.Booked deeds) :
    (deeds ++ l.stance.owed).filterMap Deed.recorded? = (deeds ++ l.stance.owed).filterMap Deed.ended? := by
  have hclosed : ∀ e, l.stance.Closed deeds e → (deeds ++ l.stance.owed).filterMap Deed.recorded?
      = (deeds ++ l.stance.owed).filterMap Deed.ended? := by
    rintro e ⟨_, inner, millis, hinner, hdeeds⟩
    have hpass := (Passes.pass millis e hinner .none).recorded_eq
    rw [List.append_nil] at hpass
    rw [hdeeds]
    exact hpass
  unfold Life.Booked at h
  cases hspot : l.spot with
  | fresh =>
    rw [hspot] at h
    rw [h.2]
    rfl
  | going stage =>
    -- the outermost pass has only begun
    rw [hspot] at h
    obtain ⟨k, ⟨_, inner, hinner, hdeeds⟩, _⟩ := h
    rw [hdeeds]
    simp only [List.filterMap_append, hinner.recorded_eq]
    rfl
  | ended r unsent =>
    rw [hspot] at h
    exact hclosed _ h
  | dropped =>
    rw [hspot] at h
    refine h.elim (fun hnone => ?_) (hclosed _)
    rw [hnone.2]
    rfl

/-- A call has never ended more passes than it has begun. -/
theorem Life.Booked.countP_isExit_le {l : Life ι ο σ α} {deeds : List Deed} (h : l.Booked deeds) :
    deeds.countP Deed.isExit ≤ deeds.countP Deed.isEntry := by
  have hdone := h.balance.orderly deeds.length
  rwa [List.take_left] at hdone

end UserDirectory.Call
