import UserDirectory.Proofs.Call.Following
import UserDirectory.Proofs.Call.Pairing
/-!
# Requests that are answered one after another

Where one answer is made to each request, a whole call comes to what its requests come to one after
another, each beginning with the table that the one before has left and reading on where the one before has
stopped.

Main statements:
  * `oneByOne_iff_exists_oneByOneAt`: with what has been read or without;
  * `Handler.endsAt_ofAnswers`: how such a call ends;
  * `Alone.oneByOneAt_of_goesBy`: what it has sent and left that is executed;
  * `Alone.inevitably_oneByOneAt`: a calm call comes to that.
-/

namespace UserDirectory.Call

open UserDirectory.Service (ServiceError)
open UserDirectory.Store (Table)
open UserDirectory.Time (Instant)

variable {ι ο : Type}

/-! ## §1. One after another. -/

/-- Requests are answered one after another, each as `R` says, from one table on to another. -/
inductive OneByOne (R : Table → ι → ο → Table → Prop) : Table → List ι → List ο → Table → Prop
  | nil (t : Table) : OneByOne R t [] [] t
  | cons {t t₁ t' : Table} {x : ι} {y : ο} {items : List ι} {responses : List ο} (h : R t x y t₁)
      (more : OneByOne R t₁ items responses t') : OneByOne R t (x :: items) (y :: responses) t'

/-- The same with what has been read of the clock, for one request after another. -/
inductive OneByOneAt (R : List Instant → Table → ι → ο → Table → Prop) :
    List Instant → Table → List ι → List ο → Table → Prop
  | nil (t : Table) : OneByOneAt R [] t [] [] t
  | cons {first later : List Instant} {t t₁ t' : Table} {x : ι} {y : ο} {items : List ι}
      {responses : List ο} (h : R first t x y t₁) (more : OneByOneAt R later t₁ items responses t') :
      OneByOneAt R (first ++ later) t (x :: items) (y :: responses) t'

/-- What holds of each request where the ones before it have kept something holds of the series. -/
theorem OneByOne.imp {R R' : Table → ι → ο → Table → Prop} {I : Table → Prop} {t t' : Table}
    {items : List ι} {responses : List ο}
    (hR : ∀ t x y t', I t → R t x y t' → R' t x y t' ∧ I t') (hI : I t)
    (h : OneByOne R t items responses t') : OneByOne R' t items responses t' := by
  induction h with
  | nil t => exact .nil t
  | cons hx _ ih =>
    obtain ⟨hx', hI'⟩ := hR _ _ _ _ hI hx
    exact .cons hx' (ih hI')

section

variable {R : List Instant → Table → ι → ο → Table → Prop} {readings : List Instant} {t t' : Table}
  {items : List ι} {responses : List ο}

theorem OneByOneAt.length_eq (h : OneByOneAt R readings t items responses t') :
    responses.length = items.length := by
  induction h with
  | nil t => rfl
  | cons _ _ ih => exact congrArg Nat.succ ih

/-- What requests come to one after another is what they come to with some readings. -/
theorem oneByOne_iff_exists_oneByOneAt :
    OneByOne (fun t x y t' => ∃ readings, R readings t x y t') t items responses t'
      ↔ ∃ readings, OneByOneAt R readings t items responses t' := by
  constructor
  · intro h
    induction h with
    | nil t => exact ⟨[], .nil t⟩
    | cons hx _ ih =>
      obtain ⟨first, hx⟩ := hx
      obtain ⟨later, hmore⟩ := ih
      exact ⟨first ++ later, .cons hx hmore⟩
  · rintro ⟨readings, h⟩
    induction h with
    | nil t => exact .nil t
    | cons hx _ ih => exact .cons ⟨_, hx⟩ ih

end

/-- An answer is made to every request, as `R` says, and nothing is sent while it is made. -/
def AnswersAt (answer : ι → Action ο ο) (R : List Instant → Table → ι → ο → Table → Prop) : Prop :=
  ∀ (hindered : Bool) (x : ι) (readings : List Instant) (t : Table) (sent : List ο) (t' : Table)
    (r : Except ServiceError ο),
    (answer x).EndsAt hindered readings t sent t' r ↔ sent = [] ∧ ∃ y, r = .ok y ∧ R readings t x y t'

/-- Whoever only asks makes an answer as it comes to one, unless it may fail. -/
theorem answersAt_of_quiet {answer : ι → Action ο ο} {n : Nat} (hquiet : ∀ x, (answer x).Quiet n)
    (hok : ∀ x t t' e, ¬ (answer x).Ends false t [] t' (.error e)) :
    AnswersAt answer fun readings t x y t' => (answer x).EndsAt false readings t [] t' (.ok y) := by
  intro hindered x readings t sent t' r
  refine (Program.Quiet.endsAt_iff (hquiet x)).trans (and_congr_right fun _ => ?_)
  cases r with
  | ok y => exact ⟨fun h => ⟨y, rfl, h⟩, fun ⟨_, hy, h⟩ => Except.ok.inj hy ▸ h⟩
  | error e =>
    constructor
    · exact fun h => absurd (Action.ends_iff_exists_endsAt.2 ⟨readings, h⟩) (hok x t t' e)
    · rintro ⟨_, ⟨⟩, _⟩

/-! ## §2. How it ends. -/

section

variable {answer : ι → Action ο ο} {R : List Instant → Table → ι → ο → Table → Prop} {hindered : Bool}
  {readings : List Instant} {t t' : Table} {sent : List ο}

/-- Makes an answer and sends it, unless the call has been cancelled. -/
def answering (a : Action ο ο) : Action ο Unit := do
  Action.ensureLive
  let y ← a
  Action.send y

/-- A request has been dealt with when its answer has been sent. -/
theorem endsAt_answering_ok (hanswer : AnswersAt answer R) {x : ι} :
    (answering (answer x)).EndsAt hindered readings t sent t' (.ok ())
      ↔ ∃ y, sent = [y] ∧ R readings t x y t' := by
  unfold answering
  rw [Action.endsAt_ensureLive_bind, Action.endsAt_bind_ok]
  constructor
  · -- whoever finds the call cancelled, or the caller gone, does not end without a failure
    rintro (⟨_, _, _, y, _, _, hy, hsend, rfl, rfl⟩ | ⟨_, _, _, _, hcancelled⟩)
    · obtain ⟨rfl, _, hok, hR⟩ := (hanswer _ _ _ _ _ _ _).1 hy
      cases hok
      rcases Action.endsAt_send.1 hsend with ⟨rfl, ⟨rfl, rfl, _⟩ | ⟨_, _, _, hgone⟩⟩
      · exact ⟨y, rfl, (List.append_nil _).symm ▸ hR⟩
      · cases hgone
    · cases hcancelled
  · rintro ⟨y, rfl, hR⟩
    exact .inl ⟨readings, [], t', y, [], [y], (hanswer _ _ _ _ _ _ _).2 ⟨rfl, y, rfl, hR⟩,
      Action.endsAt_send.2 ⟨rfl, .inl ⟨rfl, rfl, rfl⟩⟩, (List.append_nil _).symm, rfl⟩

/-- Only in a hindered call a request cannot be dealt with. -/
theorem not_endsAt_answering_error (hanswer : AnswersAt answer R) {x : ι} {e : ServiceError} :
    ¬ (answering (answer x)).EndsAt false readings t sent t' (.error e) := by
  unfold answering
  rw [Action.endsAt_ensureLive_bind, Action.endsAt_bind]
  rintro ((⟨_, _, _, _, _, _, _, hsend, _⟩ | ⟨_, hy, _⟩) | ⟨hhindered, _⟩)
  · rcases Action.endsAt_send.1 hsend with ⟨_, ⟨_, _, hsent⟩ | ⟨hhindered, _⟩⟩
    · cases hsent
    · cases hhindered
  · obtain ⟨_, _, hok, _⟩ := (hanswer _ _ _ _ _ _ _).1 hy
    cases hok
  · cases hhindered

/-- A call whose requests end normally and which does not fail has answered them one after another. -/
theorem Handler.endsAt_ofAnswers (hanswer : AnswersAt answer R) {items : List ι} :
    ((Handler.ofAnswers answer).whole (items.map .ok)).EndsAt hindered readings t sent t' (.ok ())
      ↔ OneByOneAt R readings t items sent t' := by
  induction items generalizing readings t sent with
  | nil =>
    constructor
    · rintro ⟨rfl, rfl, rfl, _⟩
      exact .nil t'
    · rintro ⟨⟩
      exact ⟨rfl, rfl, rfl, rfl⟩
  | cons x items ih =>
    refine (Action.endsAt_bind_ok (a := answering (answer x))).trans ⟨?_, ?_⟩
    · rintro ⟨_, _, t₁, _, _, rest, hx, hrest, rfl, rfl⟩
      obtain ⟨y, rfl, hR⟩ := (endsAt_answering_ok hanswer).1 hx
      exact .cons hR (ih.1 hrest)
    · rintro (_ | ⟨hR, hmore⟩)
      exact ⟨_, [_], _, (), _, _, (endsAt_answering_ok hanswer).2 ⟨_, rfl, hR⟩, ih.2 hmore, rfl, rfl⟩

/-- Only a hindered call whose requests end normally fails. -/
theorem Handler.not_endsAt_ofAnswers_error (hanswer : AnswersAt answer R) {items : List ι}
    {e : ServiceError} :
    ¬ ((Handler.ofAnswers answer).whole (items.map .ok)).EndsAt false readings t sent t' (.error e) := by
  induction items generalizing readings t sent with
  | nil =>
    rintro ⟨_, _, _, h⟩
    cases h
  | cons x items ih =>
    intro h
    rcases (Action.endsAt_bind (a := answering (answer x))).1 h
      with ⟨_, _, _, _, _, _, _, hrest, _⟩ | ⟨_, hx, _⟩
    · exact ih hrest
    · exact not_endsAt_answering_error hanswer hx

end

/-! ## §3. Calls. -/

namespace Alone

variable {answer : ι → Action ο ο} {R : List Instant → Table → ι → ο → Table → Prop} {t₀ : Table}
  {items : List ι} {inbound : Inbound ι}

/-- What a call has sent and left that is executed and has not failed, with what it has read. -/
theorem oneByOneAt_of_goesBy (hanswer : AnswersAt answer R)
    (hitems : inbound.arrivals.map (·.content) = items.map .ok) {w w' : World} (hw : w.Holds t₀)
    {manner : Manner} (hchained : manner ≠ .bare) {cancelAt : Option Nat} {context : Context} {tie : Tie}
    {cancelled : Bool} {capacity : Nat} {enough : Option Nat} {attentive : Bool}
    {shown : List (Instant × Instant)} {e : Exchange ι ο Unit Unit} {state : CallState ο}
    (hgoes : Exchange.GoesBy (.start manner cancelAt (.start (.ofAnswers answer) inbound
      { CallState.start context tie (.ofCapacity capacity ⟨enough, attentive, [], none⟩) w.clock with
        cancelled }), w) shown (e, w'))
    (hphase : e.phase = .ended (.ok ()) state) :
    ∃ readings responses t', ReadIn shown readings ∧ w'.Holds t'
      ∧ OneByOneAt R readings t₀ items responses t'
      ∧ state.outbound.reader.messages <+: responses
      ∧ (state.outbound.reader.ending = some .closed →
          state.outbound.reader.received = responses.map .ok) := by
  obtain ⟨readings, responses, t', hshown, hw', hends, hread⟩ := endsAt_of_goesBy hw _ hchained cancelAt
    inbound context tie cancelled capacity enough attentive hgoes hphase
  rw [hitems] at hends
  exact ⟨readings, responses, t', hshown, hw', (Handler.endsAt_ofAnswers hanswer).1 hends, hread⟩

/-- A calm call whose requests end normally comes to its end, and then every request has been answered. -/
theorem inevitably_oneByOneAt {P : Pairing ι ο} {bound : Nat} (hmeets : P.Meets answer bound)
    (hanswer : AnswersAt answer R) (hitems : inbound.arrivals.map (·.content) = items.map .ok)
    (hends : inbound.silent = false) (served : Bool) (capacity : Nat) (enough : Option Nat)
    (attentive : Bool) :
    (start (.ofAnswers answer) served inbound
      (.ofCapacity capacity ⟨enough, attentive, [], none⟩) t₀).Inevitably fun s =>
        s.life.stance.outbound.reader.ending = some .closed
          ∧ ∃ readings responses, s.life.stance.outbound.reader.received = responses.map .ok
              ∧ OneByOneAt R readings t₀ items responses s.table := by
  -- no request arrives broken, and they end
  have hregular : inbound.Regular := by
    refine ⟨fun a ha => ?_, hends⟩
    have hmem := List.mem_map_of_mem (f := (·.content)) ha
    rw [hitems] at hmem
    obtain ⟨x, _, hx⟩ := List.mem_map.1 hmem
    exact ⟨x, hx.symm⟩
  have hfollows : (start (.ofAnswers answer) served inbound
      (.ofCapacity capacity ⟨enough, attentive, [], none⟩) t₀).Follows (.ofAnswers answer)
        (items.map .ok) t₀ [] :=
    hitems ▸ follows_start _ served inbound capacity enough attentive t₀
  refine (hmeets.pairsStrictly.inevitable served inbound capacity enough attentive t₀ hregular).following
    ⟨rfl, nofun, nofun, fun hfresh => absurd rfl hfresh⟩ hfollows ?_
  -- a reader who has stopped at the end shows that the call has ended, and a calm one has not failed
  rintro s readings ⟨_, _, _, hclosed, _⟩ hcalm hs
  obtain ⟨r, hspot⟩ := hs.delivered.shut hclosed
  have hwhole := hs.ends_of_calm hcalm hspot
  cases r with
  | error e => exact absurd hwhole (Handler.not_endsAt_ofAnswers_error hanswer)
  | ok _ =>
    exact ⟨hclosed, readings, _, hs.delivered.received hspot hclosed,
      (Handler.endsAt_ofAnswers hanswer).1 hwhole⟩

end Alone

end UserDirectory.Call
