import UserDirectory.Proofs.Concurrency.Interleaving
/-!
# What calls do that find nobody

Three requests create users, and each of them counts the users before.  Which user a call has counted
for, and what it does when that user is refused, is said of the tree of what it asks: wherever a count
is answered with none, all that is left of the tree is known.

Main statements:
  * `Program.FindsNone.step`, `findsNone_bind`: what is left after a count that finds nobody;
  * `findsNone_addUser`, `findsNone_batchItem`, `findsNone_syncItem`: what that is for each request;
  * `Care.Sound.step`, `sound_firstCare`: a call takes the same care from its start to its end;
  * `Course.Careful.refused`: whoever finds nobody refuses a user who is no admin.
-/

namespace UserDirectory.Call

open UserDirectory.Service (ServiceError)
open UserDirectory.Store (Operation Table)

/-! ## §1. What is left after a count. -/

section Counting

variable {ο α β : Type} {R : Program ο α → Prop} {Q : α → Prop}

/-- Wherever a program counts the users and finds none, `R` holds of what is left of it; and at its end
`Q` holds. -/
def Program.FindsNone (R : Program ο α → Prop) (Q : α → Prop) : Program ο α → Prop
  | .done a => Q a
  | .store .count next => R (next (.ok (0 : Nat))) ∧ ∀ r, (next r).FindsNone R Q
  | .store _ next => ∀ r, (next r).FindsNone R Q
  | .send _ next => ∀ b, (next b).FindsNone R Q
  | .live next => ∀ b, (next b).FindsNone R Q
  | .clock next => ∀ now, (next now).FindsNone R Q
  | .note _ next => next.FindsNone R Q
  | .pause _ next => next.FindsNone R Q
  | .cancel next => next.FindsNone R Q
  | .claims next => ∀ c, (next c).FindsNone R Q
  | .enter next => ∀ r, (next r).FindsNone R Q
  | .leave _ next => next.FindsNone R Q

namespace Program

theorem FindsNone.next {op : Operation} {next : op.Outcome → Program ο α}
    (h : (Program.store op next).FindsNone R Q) (r : op.Outcome) : (next r).FindsNone R Q := by
  cases op with
  | count => exact h.2 r
  | _ => exact h r

/-- A step leads from what holds to what holds; if the users have been counted and there are none, it is
known what is left. -/
theorem FindsNone.step {p p' : Program ο α} {t t' : Table} {asked : Option Transaction}
    (h : p.FindsNone R Q) (hs : p.Step t asked t' p') :
    p'.FindsNone R Q ∧ (asked = some ⟨.count, .ok (0 : Nat)⟩ → R p') := by
  cases hs with
  | store op next now =>
    refine ⟨h.next _, ?_⟩
    intro hasked
    cases op with
    | count =>
      -- the reply is what the step has noted
      have hreply : (t.perform now .count).1 = .ok (0 : Nat) := by simpa using hasked
      rw [hreply]
      exact h.1
    | _ => cases hasked
  | send item next there => exact ⟨h there, nofun⟩
  | live next alive => exact ⟨h alive, nofun⟩
  | clock next now => exact ⟨h now, nofun⟩
  | note n next => exact ⟨h, nofun⟩
  | pause ms next => exact ⟨h, nofun⟩
  | cancel next => exact ⟨h, nofun⟩
  | claims next c => exact ⟨h c, nofun⟩
  | enter next refusal => exact ⟨h refusal, nofun⟩
  | leave failure next => exact ⟨h, nofun⟩

/-- Of two programs one after another, the second is left too when the first has counted. -/
theorem findsNone_bind {p : Program ο β} {f : β → Program ο α}
    (h : p.FindsNone (fun q => R (q.bind f)) fun b => (f b).FindsNone R Q) :
    (p.bind f).FindsNone R Q := by
  induction p with
  | done b => exact h
  | store op next ih =>
    cases op with
    | count => exact ⟨h.1, fun r => ih r (h.2 r)⟩
    | _ => exact fun r => ih r (h r)
  | send item next ih => exact fun b => ih b (h b)
  | live next ih => exact fun b => ih b (h b)
  | clock next ih => exact fun now => ih now (h now)
  | note n next ih => exact ih h
  | pause ms next ih => exact ih h
  | cancel next ih => exact ih h
  | claims next ih => exact fun c => ih c (h c)
  | enter next ih => exact fun r => ih r (h r)
  | leave failure next ih => exact ih h

theorem FindsNone.mono {R' : Program ο α → Prop} {Q' : α → Prop} {p : Program ο α}
    (hR : ∀ q, R q → R' q) (hQ : ∀ a, Q a → Q' a) (h : p.FindsNone R Q) : p.FindsNone R' Q' := by
  induction p with
  | done a => exact hQ a h
  | store op next ih =>
    cases op with
    | count => exact ⟨hR _ h.1, fun r => ih r (h.2 r)⟩
    | _ => exact fun r => ih r (h r)
  | send item next ih => exact fun b => ih b (h b)
  | live next ih => exact fun b => ih b (h b)
  | clock next ih => exact fun now => ih now (h now)
  | note n next ih => exact ih h
  | pause ms next ih => exact ih h
  | cancel next ih => exact ih h
  | claims next ih => exact fun c => ih c (h c)
  | enter next ih => exact fun r => ih r (h r)
  | leave failure next ih => exact ih h

/-- Where nothing is asked of what is left, every program will do. -/
theorem findsNone_of_forall (hR : ∀ q, R q) (hQ : ∀ a, Q a) (p : Program ο α) : p.FindsNone R Q := by
  induction p with
  | done a => exact hQ a
  | store op next ih =>
    cases op with
    | count => exact ⟨hR _, ih⟩
    | _ => exact ih
  | send item next ih => exact ih
  | live next ih => exact ih
  | clock next ih => exact ih
  | note n next ih => exact ih
  | pause ms next ih => exact ih
  | cancel next ih => exact ih
  | claims next ih => exact ih
  | enter next ih => exact ih
  | leave failure next ih => exact ih

theorem findsNone_ite {c : Prop} [Decidable c] {a b : Action ο β}
    {R : Program ο (Except ServiceError β) → Prop} {Q : Except ServiceError β → Prop}
    (ha : c → a.program.FindsNone R Q) (hb : ¬ c → b.program.FindsNone R Q) :
    (if c then a else b).program.FindsNone R Q := by
  split
  · rename_i h
    exact ha h
  · rename_i h
    exact hb h

end Program

end Counting

end UserDirectory.Call

namespace UserDirectory.Service

open UserDirectory.Call
open UserDirectory.Store (StoreError Table)

variable {ο : Type}

/-! ## §2. The actions. -/

/-- What is told of a user who would be the first and is no admin. -/
def notFirst : ServiceError := .invalidArgument firstMustBeAdmin

/-- What is left of an action that has refused a user for not being the first admin, if it has. -/
def Refuses {α : Type} (u : User) (refused q : Program ο α) : Prop := u.role ≠ .admin → q = refused

/-- What goes on after a refusal goes on from there. -/
theorem Refuses.bind {α β : Type} {u : User} {e : α} {f : α → Program ο β} {refused : Program ο β}
    (h : f e = refused) (q : Program ο α) (hq : Refuses u (.done e) q) :
    Refuses u refused (q.bind f) := by
  intro hu
  rw [hq hu]
  exact h

/-- Whoever learns how an action ended learns that it has refused. -/
theorem findsNone_outcome {α : Type} {u : User} {a : Action ο α} {e : ServiceError}
    (h : a.program.FindsNone (Refuses u (.done (.error e))) fun _ => True) :
    a.outcome.program.FindsNone (Refuses u (.done (.ok (.error e)))) fun _ => True :=
  Program.findsNone_bind (h.mono (Refuses.bind rfl) fun _ _ => trivial)

theorem findsNone_checkFirst (u : User) :
    (checkFirst u : Action ο Unit).program.FindsNone (Refuses u (.done (.error notFirst)))
      fun _ => True := by
  refine ⟨?_, ?_⟩
  · intro hu
    show (if (0 : Nat) = 0 ∧ u.role ≠ .admin then _ else _ : Action ο Unit).program = _
    rw [if_pos ⟨rfl, hu⟩]
    rfl
  · intro (r : Except StoreError Nat)
    rcases r with e | n
    · exact trivial
    · exact Program.findsNone_ite (fun _ => trivial) fun _ => trivial

/-- Nothing is left of creating a user who is refused. -/
theorem findsNone_create (u : User) :
    (create u : Action ο Unit).program.FindsNone (Refuses u (.done (.error notFirst)))
      fun _ => True := by
  refine Program.findsNone_bind ((findsNone_checkFirst u).mono (Refuses.bind rfl) ?_)
  intro r _
  rcases r with e | _
  · exact trivial
  · -- the rest does not count
    show (needId u.id >>= _ : Action ο Unit).program.FindsNone _ _
    by_cases hid : u.id = 0
    · rw [needId, if_pos hid]
      exact trivial
    · rw [needId, if_neg hid]
      refine Program.findsNone_ite (fun _ => trivial) fun _ => ?_
      intro r
      rcases r with e | _ <;> exact trivial

/-- Nothing is left of the call that adds the user, and it fails. -/
theorem findsNone_addUser (u : User) :
    (addUser u : Action ο Unit).program.FindsNone (Refuses u (.done (.error notFirst)))
      fun _ => True := by
  intro alive
  cases alive with
  | false => exact trivial
  | true =>
    show (create u >>= _ : Action ο Unit).program.FindsNone _ _
    refine Program.findsNone_bind ((findsNone_create u).mono (Refuses.bind rfl) ?_)
    intro r _
    rcases r with e | _ <;> exact trivial

/-- Nothing is left of the user but a sentence among the errors of the batch; a user who is not refused
is counted too. -/
theorem findsNone_batchItem (totals : BatchTotals) (u : User) :
    (batchItem totals u : Action ο BatchTotals).program.FindsNone
      (Refuses u (.done (.ok { totals with
        received := totals.received + 1
        errors := totals.errors ++ [batchError (totals.received + 1) notFirst] })))
      fun outcome => ∀ kept, outcome = .ok kept → kept.received = totals.received + 1 := by
  intro alive
  cases alive with
  | false => exact nofun
  | true =>
    show (Action.outcome (create u) >>= _ : Action ο BatchTotals).program.FindsNone _ _
    refine Program.findsNone_bind ((findsNone_outcome (findsNone_create u)).mono
      (Refuses.bind rfl) ?_)
    rintro (e | e | _) _
    · exact nofun
    · cases e with
      | cancelled => exact nofun
      | _ =>
        rintro kept ⟨⟩
        rfl
    · rintro kept ⟨⟩
      rfl

/-- Nothing is left of bringing a user in line who is to be created and is refused. -/
theorem findsNone_syncUser (u : User) :
    (syncUser u : Action ο (List String)).program.FindsNone (Refuses u (.done (.error notFirst)))
      fun _ => True := by
  show (needId u.id >>= _ : Action ο (List String)).program.FindsNone _ _
  by_cases hid : u.id = 0
  · rw [needId, if_pos hid]
    exact trivial
  · rw [needId, if_neg hid]
    intro (found : Except StoreError User)
    rcases found with e | existing
    · cases e with
      | notFound id =>
        show (create u >>= _ : Action ο (List String)).program.FindsNone _ _
        refine Program.findsNone_bind ((findsNone_create u).mono (Refuses.bind rfl) ?_)
        intro r _
        rcases r with e | _ <;> exact trivial
      | _ => exact trivial
    · -- a user who is there is replaced, and nobody is counted
      intro r
      rcases r with e | _ <;> exact trivial

/-- All that is left of the user is to answer that the user has been refused. -/
theorem findsNone_syncItem (u : User) :
    (syncItem () u).program.FindsNone
      (Refuses u (Action.send (syncAnswer u.id (.error notFirst))).program) fun _ => True := by
  intro alive
  cases alive with
  | false => exact trivial
  | true =>
    show (Action.outcome (syncUser u) >>= _ : Action SyncUserResponse Unit).program.FindsNone _ _
    refine Program.findsNone_bind ((findsNone_outcome (findsNone_syncUser u)).mono
      (Refuses.bind rfl) ?_)
    rintro (e | outcome) _
    · exact trivial
    · -- whether the call has been cancelled or goes on to answer
      refine Program.findsNone_ite (fun _ => trivial) fun _ => ?_
      intro there
      cases there <;> exact trivial

/-! ## §3. The calls. -/

variable {r : Request} {c c' : Course r} {t t' : Table} {asked : Option Transaction}

/-- What is asked of a call that counts the users and finds none: of what is left of a request that it
has taken, of what is left of its end, and of what it keeps after so many requests. -/
structure Care (r : Request) where
  kept : Nat → r.method.Progress → Prop
  item : Nat → r.method.Item →
    Program r.method.Response (Except ServiceError r.method.Progress) → Prop
  closing : Program r.method.Response (Except ServiceError r.method.Result) → Prop

/-- A call takes care from where it has come. -/
def Course.Careful (k : Care r) : Course r → Prop
  | .going (.awaiting kept) rest =>
    ∃ taken, r.inbound.arrivals = taken ++ rest ∧ k.kept taken.length kept
  | .going (.handling p) rest =>
    ∃ taken x delay, r.inbound.arrivals = taken ++ ⟨.ok x, delay⟩ :: rest ∧
      p.FindsNone (k.item (taken.length + 1) x) fun outcome =>
        ∀ kept, outcome = .ok kept → k.kept (taken.length + 1) kept
  | .going (.closing p) _ => p.FindsNone k.closing fun _ => True
  | _ => True

/-- A handler takes care: from its start on, of each request, and at its end. -/
structure Care.Sound (k : Care r) : Prop where
  start : (Course.start r).Careful k
  item : ∀ n kept x, k.kept n kept →
    (r.handler.onItem kept x).FindsNone (k.item (n + 1) x) fun outcome =>
      ∀ kept', outcome = .ok kept' → k.kept (n + 1) kept'
  closing : ∀ n kept, k.kept n kept → (r.handler.onEnd kept).FindsNone k.closing fun _ => True

/-- A call whose handler takes care goes on taking care. -/
theorem Care.Sound.step {k : Care r} (hk : k.Sound) (h : c.Careful k)
    (hs : c.Step t asked t' c') : c'.Careful k := by
  cases hs with
  | handle rest hp =>
    obtain ⟨taken, x, delay, harrivals, hfinds⟩ := h
    exact ⟨taken, x, delay, harrivals, (hfinds.step hp).1⟩
  | close rest hp => exact (Program.FindsNone.step h hp).1
  | take kept x delay rest =>
    obtain ⟨taken, harrivals, hkept⟩ := h
    exact ⟨taken, x, delay, harrivals, hk.item _ kept x hkept⟩
  | breakOff kept cause delay rest => exact trivial
  | exhaust kept hsilent =>
    obtain ⟨taken, _, hkept⟩ := h
    exact hk.closing _ kept hkept
  | answered kept rest =>
    obtain ⟨taken, x, delay, harrivals, hdone⟩ := h
    -- the request that has been answered is one that has been taken
    refine ⟨taken ++ [⟨.ok x, delay⟩], by rw [harrivals, List.append_assoc]; rfl, ?_⟩
    rw [List.length_append]
    exact hdone kept rfl
  | failed cause rest => exact trivial
  | finish result rest => exact trivial
  | cut stage rest => exact trivial
  | drop stage rest => exact trivial

/-- What is left of a call that has just counted and found nobody. -/
theorem Course.Careful.found_none {k : Care r} (h : c.Careful k)
    (hs : c.Step t (some ⟨.count, .ok (0 : Nat)⟩) t' c') :
    (∃ taken x delay rest p p', r.inbound.arrivals = taken ++ ⟨.ok x, delay⟩ :: rest
        ∧ c = .going (.handling p) rest ∧ c' = .going (.handling p') rest
        ∧ k.item (taken.length + 1) x p')
    ∨ ∃ rest p p', c = .going (.closing p) rest ∧ c' = .going (.closing p') rest
        ∧ k.closing p' := by
  cases hs with
  | handle rest hp =>
    obtain ⟨taken, x, delay, harrivals, hfinds⟩ := h
    exact .inl ⟨taken, x, delay, rest, _, _, harrivals, rfl, rfl, (hfinds.step hp).2 rfl⟩
  | close rest hp =>
    exact .inr ⟨rest, _, _, rfl, rfl, (Program.FindsNone.step h hp).2 rfl⟩

/-- The last message that has been taken from a stream of which `rest` is left. -/
def lastTaken (arrivals rest : List (Arrival User)) : Option User :=
  (arrivals.take (arrivals.length - rest.length)).getLast?.bind fun a => a.content.toOption

/-- How many have been taken, from what is left. -/
theorem length_taken {α : Type} {all taken rest : List α} {x : α} (h : all = taken ++ x :: rest) :
    all.length - rest.length = taken.length + 1 := by
  rw [h, List.length_append, List.length_cons]
  omega

theorem lastTaken_eq {all taken rest : List (Arrival User)} {u : User} {delay : Nat}
    (h : all = taken ++ ⟨.ok u, delay⟩ :: rest) : lastTaken all rest = some u := by
  unfold lastTaken
  rw [length_taken h, h, List.append_cons taken _ rest,
    List.take_left' (by rw [List.length_append]; rfl), List.getLast?_concat]
  rfl

/-- The user whom a call is about to create, or has in hand: that of its request, or the last that it
has taken from its stream. -/
def Course.subject? : {r : Request} → Course r → Option User
  | .addUser u, .going (.closing _) _ => some u
  | .batchAddUsers users, .going (.handling _) rest => lastTaken users.arrivals rest
  | .syncUsers users, .going (.handling _) rest => lastTaken users.arrivals rest
  | _, _ => none

/-- What is left to do where a user has been refused for not being an admin: to fail, to go on with one
more error among those of the batch, or to send that the user has been refused. -/
def Course.Refused (u : User) : {r : Request} → Course r → Prop
  | .addUser _, .going (.closing p) _ => p = .done (.error notFirst)
  | .batchAddUsers users, .going (.handling p) rest =>
    ∃ totals : BatchTotals, p = .done (.ok totals)
      ∧ batchError (.ofNat (users.arrivals.length - rest.length)) notFirst ∈ totals.errors
  | .syncUsers _, .going (.handling p) _ =>
    p = (Action.send ⟨u.id, .failed, some firstMustBeAdmin, []⟩).program
  | _, _ => False

/-- What a call does with a user who is no admin when there is nobody yet. -/
def firstCare : (r : Request) → Care r
  | .addUser u => ⟨fun _ _ => True, fun _ _ _ => True, Refuses u (.done (.error notFirst))⟩
  | .batchAddUsers _ => ⟨fun n (totals : BatchTotals) => totals.received = .ofNat n,
      fun n (u : User) q => u.role ≠ .admin → ∃ totals : BatchTotals, q = .done (.ok totals)
        ∧ batchError (.ofNat n) notFirst ∈ totals.errors,
      fun _ => True⟩
  | .syncUsers _ => ⟨fun _ _ => True,
      fun _ (u : User) => Refuses u (Action.send (syncAnswer u.id (.error notFirst))).program,
      fun _ => True⟩
  | _ => ⟨fun _ _ => True, fun _ _ _ => True, fun _ => True⟩

/-- The next number of a stream. -/
theorem ofNat_succ (n : Nat) : UInt32.ofNat (n + 1) = UInt32.ofNat n + 1 := by
  apply UInt32.toNat_inj.1
  simp

theorem sound_firstCare (r : Request) : (firstCare r).Sound := by
  -- what becomes of the other requests does not matter
  have hfree : ∀ {ο α : Type} (p : Program ο α), p.FindsNone (fun _ => True) fun _ => True :=
    Program.findsNone_of_forall (fun _ => trivial) fun _ => trivial
  cases r with
  | addUser u => exact ⟨findsNone_addUser u, fun _ _ x => x.elim, fun _ _ _ => findsNone_addUser u⟩
  | batchAddUsers users =>
    refine ⟨⟨[], rfl, rfl⟩, ?_, fun _ _ _ => hfree _⟩
    intro n (totals : BatchTotals) (u : User) (hkept : totals.received = .ofNat n)
    refine (findsNone_batchItem totals u).mono ?_ ?_
    · intro q hq hu
      refine ⟨_, hq hu, ?_⟩
      rw [ofNat_succ, ← hkept]
      exact List.mem_append_right _ (List.mem_singleton.2 rfl)
    · intro outcome hout (kept : BatchTotals) hk
      show kept.received = _
      rw [hout kept hk, hkept, ofNat_succ]
  | syncUsers users =>
    refine ⟨⟨[], rfl, trivial⟩, fun n kept (u : User) _ => ?_, fun _ _ _ => hfree _⟩
    exact (findsNone_syncItem u).mono (fun _ hq => hq) fun _ _ _ _ => trivial
  | userActivityStream activities =>
    refine ⟨⟨[], rfl, trivial⟩, fun n kept x _ => ?_, fun _ _ _ => hfree _⟩
    exact Program.findsNone_of_forall (fun _ => trivial) (fun _ _ _ => trivial) _
  | _ => exact ⟨hfree _, fun _ _ x => x.elim, fun _ _ _ => hfree _⟩

/-- Whoever counts, finds nobody, and has a user in hand who is no admin refuses this user. -/
theorem Course.Careful.refused {u : User} (h : c.Careful (firstCare r)) (hu : c.subject? = some u)
    (hrole : u.role ≠ .admin) (hs : c.Step t (some ⟨.count, .ok (0 : Nat)⟩) t' c') :
    c'.Refused u := by
  obtain ⟨taken, x, delay, rest, p, p', harrivals, rfl, rfl, hitem⟩ | ⟨rest, p, p', rfl, rfl, hclose⟩ :=
    h.found_none hs
  · -- the user is the last that has been taken
    cases r with
    | batchAddUsers users =>
      cases (lastTaken_eq harrivals).symm.trans hu
      obtain ⟨totals, rfl, hmem⟩ := hitem hrole
      have hmem : batchError (.ofNat (users.arrivals.length - rest.length)) notFirst
          ∈ totals.errors := by
        rw [show users.arrivals.length - rest.length = _ from length_taken harrivals]
        exact hmem
      exact ⟨totals, rfl, hmem⟩
    | syncUsers users =>
      cases (lastTaken_eq harrivals).symm.trans hu
      exact hitem hrole
    | _ => cases hu
  · cases r with
    | addUser v =>
      cases hu
      exact hclose hrole
    | _ => cases hu

end UserDirectory.Service
