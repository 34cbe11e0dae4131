import UserDirectory.Proofs.Call.Sharing
import UserDirectory.Proofs.Store.Paging
import UserDirectory.Service.Request
/-!
# Listings

A listing reads the clock if an age matters, asks the store once, and then sends what it has been given, one
user after another, while others may change the store.  So whoever reads it to the end has got the users of
one moment, or has been told why not; nothing is left out without a word.  That there is no instant so long
ago is told only where the call itself has read the clock and there is none.

Main statements:
  * `yields_listUsers`, `yields_listUsersByRole`: what both methods ask and send;
  * `Inquiry.reads_of_keeps`: what is read by whoever reads to the end;
  * `listings_tell_all`: both methods, in whatever company.
-/

namespace UserDirectory.Service

open UserDirectory.Call
open UserDirectory.Store (Operation StoreError Table)
open UserDirectory.Time (Duration Instant)

/-! ## §1. What a listing asks and answers. -/

/-- What a store lists of a table, if it is asked for a listing. -/
def listing (t : Table) : Operation → Option (Except StoreError (List User))
  | .list f => some (t.select f)
  | .listByRole r => some (.ok (t.withRole r))
  | _ => none

/-- What has been listed, if a listing has been asked for. -/
def listed : Transaction → Option (Except StoreError (List User))
  | ⟨.list _, r⟩ => some r
  | ⟨.listByRole _, r⟩ => some r
  | _ => none

/-- What is listed is a listing of the table that has been asked. -/
theorem listing_of_listed {x : Transaction} {t : Table} {now : Instant}
    {r : Except StoreError (List User)} (hx : listed x = some r)
    (hout : x.outcome = (t.perform now x.operation).1) : listing t x.operation = some r := by
  obtain ⟨op, out⟩ := x
  cases op with
  | list f =>
    cases hx
    exact congrArg some hout.symm
  | listByRole role =>
    cases hx
    exact congrArg some hout.symm
  | _ => cases hx

/-- What a listing of some method asks for. -/
structure Inquiry where
  /-- how old users must be, if that matters -/
  age : Option Duration
  /-- what the store is asked for, from the instant before which users must have been created -/
  asks : Option Instant → Operation
  /-- the token that it passes on -/
  token : Option String
  /-- what is told where there is nobody -/
  nobody : String

/-- What listing users asks for. -/
def inquiryOf (q : ListUsersRequest) : Inquiry where
  age := q.olderThan
  asks before := .list (filterOf q before)
  token := q.pageToken
  nobody := "no users found"

/-- What listing the users with a role asks for. -/
def inquiryByRole (q : UserRoleRequest) : Inquiry where
  age := none
  asks _ := .listByRole q.role
  token := none
  nobody := "no users found with role " ++ q.role.name

/-- What is told where the instant cannot be had before which users must have been created. -/
def outOfRange : ServiceError := .invalidArgument "older_than out of range"

namespace Inquiry

variable (I : Inquiry)

/-- The answer to a listing. -/
def answer : Except StoreError (List User) → List (Response User)
  | .ok [] => [.error (ServiceError.notFound I.nobody).status]
  | .ok users => users.map .ok
  | .error e => [.error (ServiceError.ofStore e).status]

theorem answer_ok {users : List User} (h : users ≠ []) : I.answer (.ok users) = users.map .ok := by
  cases users with
  | nil => exact absurd rfl h
  | cons u more => rfl

/-- What has been asked before the store is: where an age matters the clock, and by that reading it is
settled before which instant users must have been created. -/
inductive Opens : List Asked → Option Instant → Prop
  | ageless (h : I.age = none) : Opens [] none
  | aged {age : Duration} {now cut : Instant} (hage : I.age = some age) (hcut : now.minus? age = some cut) :
      Opens [.clock now] (some cut)

/-- The clock has been asked, and so long before that reading there is no instant. -/
def Refuses (trace : List Asked) : Prop :=
  ∃ age now, I.age = some age ∧ trace = [.clock now] ∧ now.minus? age = none

/-- The store has been asked last, and this is what it has listed. -/
def Lists (trace : List Asked) (r : Except StoreError (List User)) : Prop :=
  ∃ opening before now x, I.Opens opening before ∧ trace = opening ++ [.store now x]
    ∧ x.operation = I.asks before ∧ listed x = some r

/-! ## §2. What is asked and sent. -/

/-- What has been sent at any point: nothing, or the first of the users that have been listed. -/
def Sends (trace : List Asked) (accepted : List User) : Prop :=
  accepted = [] ∨ ∃ users, I.Lists trace (.ok users) ∧ accepted <+: users

/-- How a listing ends: there is no instant so long ago, or it is hindered, or all is sent. -/
def Ends (hindered : Bool) (trace : List Asked) (accepted : List User)
    (result : Except ServiceError Unit) : Prop :=
  (I.Refuses trace ∧ accepted = [] ∧ result = .error outOfRange)
  ∨ (hindered = true ∧ result = .error .cancelled ∧ I.Sends trace accepted)
  ∨ ∃ r, I.Lists trace r ∧ accepted.map .ok ++ lastWord result = I.answer r

end Inquiry

section

variable {I : Inquiry} {trace opening : List Asked} {before : Option Instant} {users : List User}
  {b : Bool}

/-- Users are sent in their order, and all of them unless it is hindered. -/
theorem yields_sendAll (hlists : I.Lists trace (.ok users)) (hne : users ≠ []) {sent rest : List User}
    (h : sent ++ rest = users) : (sendAll rest).program.Yields I.Sends I.Ends b trace sent := by
  have hsends : ∀ sent rest, sent ++ rest = users → I.Sends trace sent :=
    fun sent rest h => .inr ⟨users, hlists, rest, h⟩
  induction rest generalizing sent with
  | nil =>
    refine ⟨hsends sent [] h, .inr (.inr ⟨_, hlists, ?_⟩)⟩
    rw [List.append_nil] at h
    rw [h, I.answer_ok hne]
    exact List.append_nil _
  | cons u more ih =>
    have hnow := hsends sent (u :: more) h
    have hnext : sent ++ [u] ++ more = users := by
      rw [List.append_assoc]
      exact h
    have hstop : (Program.done (.error .cancelled) : Program User (Except ServiceError Unit)).Yields
        I.Sends I.Ends true trace sent := ⟨hnow, .inr (.inl ⟨rfl, rfl, hnow⟩)⟩
    exact ⟨hnow, ⟨hnow, ih hnext, hstop⟩, hstop⟩

/-- What has been listed is sent, and it is told if it is nobody. -/
theorem yields_listed (rest : List User → Action User Unit)
    (hrest : ∀ users, rest users
      = if users.isEmpty then throw (.notFound I.nobody) else sendAll users)
    {r : Except StoreError (List User)} (hlists : I.Lists trace r) :
    (match r with
      | .ok users => (rest users).program
      | .error e => .done (.error (.ofStore e))).Yields I.Sends I.Ends b trace [] := by
  have hsends : I.Sends trace [] := .inl rfl
  cases r with
  | error e => exact ⟨hsends, .inr (.inr ⟨_, hlists, rfl⟩)⟩
  | ok users =>
    simp only [hrest]
    cases users with
    | nil => exact ⟨hsends, .inr (.inr ⟨_, hlists, rfl⟩)⟩
    | cons u more => exact yields_sendAll hlists nofun rfl

theorem yields_listUsersByRole (q : UserRoleRequest) :
    (listUsersByRole q).program.Yields (inquiryByRole q).Sends (inquiryByRole q).Ends false [] [] := by
  have hnothing : (inquiryByRole q).Sends [] [] := .inl rfl
  refine ⟨hnothing, ⟨hnothing, ?_⟩, hnothing, .inr (.inl ⟨rfl, rfl, hnothing⟩)⟩
  intro now (r : Except StoreError (List User))
  have hlists : (inquiryByRole q).Lists [.store now ⟨.listByRole q.role, r⟩] r :=
    ⟨[], none, now, _, .ageless rfl, rfl, rfl, rfl⟩
  have h := yields_listed (b := false)
    (fun users => if users.isEmpty then throw (.notFound (inquiryByRole q).nobody) else sendAll users)
    (fun _ => rfl) hlists
  cases r with
  | error e => exact h
  | ok users => cases users <;> exact h

/-- What is done for a listing once it is known before which instant users must have been created. -/
def listBefore (q : ListUsersRequest) (before : Option Instant) : Action User Unit := do
  Action.ensureLive
  let users : List User ← Action.store (.list (filterOf q before))
  if users.isEmpty then throw (.notFound "no users found")
  sendAll users

theorem listUsers_eq (q : ListUsersRequest) :
    listUsers q = createdBefore q.olderThan >>= listBefore q := rfl

theorem yields_listBefore (q : ListUsersRequest) (hopens : (inquiryOf q).Opens opening before) :
    (listBefore q before).program.Yields (inquiryOf q).Sends (inquiryOf q).Ends false opening [] := by
  have hnothing : (inquiryOf q).Sends opening [] := .inl rfl
  refine ⟨hnothing, ⟨hnothing, ?_⟩, hnothing, .inr (.inl ⟨rfl, rfl, hnothing⟩)⟩
  intro now (r : Except StoreError (List User))
  have hlists : (inquiryOf q).Lists (opening ++ [.store now ⟨.list (filterOf q before), r⟩]) r :=
    ⟨opening, before, now, _, hopens, rfl, rfl, rfl⟩
  have h := yields_listed (b := false)
    (fun users => if users.isEmpty then throw (.notFound (inquiryOf q).nobody) else sendAll users)
    (fun _ => rfl) hlists
  cases r with
  | error e => exact h
  | ok users => cases users <;> exact h

/-- The clock decides whether there is an instant that early. -/
theorem createdBefore_some (d : Duration) :
    createdBefore (some d)
      = Action.clock >>= fun now => (now.minus? d).elim (throw outOfRange) fun t => pure (some t) := by
  unfold createdBefore
  refine congrArg (Action.clock >>= ·) (funext fun now => ?_)
  cases now.minus? d <;> rfl

/-- Before the store is asked, the listing is opened or refused. -/
theorem yields_createdBefore (q : ListUsersRequest) :
    (createdBefore q.olderThan : Action User (Option Instant)).program.Yields (inquiryOf q).Sends
      (fun b trace accepted r => b = false ∧ accepted = [] ∧ match r with
        | .ok before => (inquiryOf q).Opens trace before
        | .error e => (inquiryOf q).Refuses trace ∧ e = outOfRange) false [] [] := by
  have hnothing : ∀ trace, (inquiryOf q).Sends trace [] := fun _ => .inl rfl
  cases hage : q.olderThan with
  | none => exact ⟨hnothing [], rfl, rfl, .ageless hage⟩
  | some age =>
    rw [createdBefore_some]
    refine ⟨hnothing [], fun now => ?_⟩
    show ((now.minus? age).elim (throw outOfRange) (fun t => pure (some t))
      : Action User (Option Instant)).program.Yields _ _ false [.clock now] []
    cases hcut : now.minus? age with
    | some cut => exact ⟨hnothing _, rfl, rfl, .aged hage hcut⟩
    | none => exact ⟨hnothing _, rfl, rfl, ⟨age, now, hage, rfl, hcut⟩, rfl⟩

theorem yields_listUsers (q : ListUsersRequest) :
    (listUsers q).program.Yields (inquiryOf q).Sends (inquiryOf q).Ends false [] [] := by
  rw [listUsers_eq]
  refine Program.yields_bind (yields_createdBefore q) ?_
  rintro b trace accepted (e | before) ⟨rfl, rfl, h⟩
  · exact ⟨.inl rfl, .inl ⟨h.1, rfl, congrArg _ h.2⟩⟩
  · exact yields_listBefore q h

end

/-! ## §3. What is read. -/

namespace Inquiry

variable (I : Inquiry)

/-- On the way of a call from one point to another there is a moment, after what was asked before the
store, at which the store lists this; and that is the last that has been asked. -/
def ListsBetween (s₀ s : Alone Empty User Unit Unit) (trace : List Asked)
    (r : Except StoreError (List User)) : Prop :=
  ∃ opening before now x s₁, I.Opens opening before ∧ trace = opening ++ [.store now x]
    ∧ x.operation = I.asks before ∧ s₀.RunsAmong opening s₁ ∧ s₁.RunsAmong [.store now x] s
    ∧ listing s₁.table (I.asks before) = some r

/-- What somebody has received who has read a call to the end that has asked `trace`. -/
inductive Reads (s₀ s : Alone Empty User Unit Unit) (trace : List Asked) : List (Response User) → Prop
  /-- exactly the users whom the store listed at one moment -/
  | users {users : List User} (h : I.ListsBetween s₀ s trace (.ok users)) (hne : users ≠ [])
      (hascending : users.Pairwise fun u v => u.id < v.id) : Reads s₀ s trace (users.map .ok)
  | nobody (h : I.ListsBetween s₀ s trace (.ok [])) :
      Reads s₀ s trace [.error (ServiceError.notFound I.nobody).status]
  | badToken {token : String} (htoken : I.token = some token)
      (hbad : Store.PageToken.after? token = none) :
      Reads s₀ s trace [.error (ServiceError.invalidArgument "invalid page token").status]
  /-- the one reading that the call has taken is too early for the age that is asked for -/
  | refused (h : I.Refuses trace) : Reads s₀ s trace [.error outOfRange.status]
  /-- the chain has not let the call through -/
  | rejected {cause : ServiceError} (h : s.life.admitted = false) :
      Reads s₀ s trace [.error cause.status]
  /-- the first of the users whom the store listed at one moment, or none before that -/
  | cancelled {sent : List User} (hcancelled : s.life.stance.cancelled = true)
      (h : sent = [] ∨ ∃ users, I.ListsBetween s₀ s trace (.ok users) ∧ sent <+: users) :
      Reads s₀ s trace (sent.map .ok ++ [.error ServiceError.cancelled.status])

end Inquiry

/-- A filter has a cursor unless its token is bad. -/
theorem cursor_cases (f : Store.ListFilter) :
    (∃ cursor, f.cursor = .ok cursor)
    ∨ ∃ token, f.pageToken = some token ∧ Store.PageToken.after? token = none
        ∧ f.cursor = .error (.invalidArgument "invalid page token") := by
  unfold Store.ListFilter.cursor
  cases f.pageToken with
  | none => exact .inl ⟨none, rfl⟩
  | some token =>
    simp only
    cases hafter : Store.PageToken.after? token with
    | some id => exact .inl ⟨some id, rfl⟩
    | none => exact .inr ⟨token, rfl, hafter, rfl⟩

/-- A listing of a table in order is in order; there is none only where the token is bad. -/
theorem listing_cases {t : Table} (ht : t.Tidy) {op : Operation} {r : Except StoreError (List User)}
    (h : listing t op = some r) :
    (∃ users, r = .ok users ∧ users.Pairwise fun u v => u.id < v.id)
    ∨ ∃ f token, op = .list f ∧ f.pageToken = some token ∧ Store.PageToken.after? token = none
        ∧ r = .error (.invalidArgument "invalid page token") := by
  cases op with
  | list f =>
    obtain rfl := Option.some.inj h
    unfold Table.select
    obtain ⟨cursor, hcursor⟩ | ⟨token, htoken, hbad, hcursor⟩ := cursor_cases f
    · rw [hcursor]
      refine .inl ⟨_, rfl, ?_⟩
      rw [ht.after_eq_filter]
      exact ((ht.values_ascending.filter _).filter _).sublist (f.firstPage_prefix _).sublist
    · rw [hcursor]
      exact .inr ⟨f, token, rfl, htoken, hbad, rfl⟩
  | listByRole role =>
    obtain rfl := Option.some.inj h
    exact .inl ⟨_, rfl, ht.values_ascending.filter _⟩
  | _ => cases h

/-- What a listing of some method asks for passes on the token of the request. -/
structure Inquiry.Sound (I : Inquiry) : Prop where
  token : ∀ before f, I.asks before = .list f → f.pageToken = I.token

section

variable {I : Inquiry} {a : Action User Unit} {trace : List Asked} {s₀ s : Alone Empty User Unit Unit}

/-- What has been asked on the way is listed at one moment. -/
theorem Inquiry.Lists.between {r : Except StoreError (List User)} (h : I.Lists trace r)
    (hruns : s₀.RunsAmong trace s) : I.ListsBetween s₀ s trace r := by
  obtain ⟨opening, before, now, x, hopens, htrace, hasks, hlisted⟩ := h
  obtain ⟨s₁, hopening, hasked, hout⟩ := hruns.moment htrace
  exact ⟨opening, before, now, x, s₁, hopens, htrace, hasks, hopening, hasked,
    hasks ▸ listing_of_listed hlisted hout⟩

/-- What has been received by whoever has read to the end. -/
theorem Inquiry.reads_of_keeps (hI : I.Sound) (ht : s₀.table.Reachable)
    (hruns : s₀.RunsAmong trace s) (h : Alone.Keeps I.Sends I.Ends a trace s.life)
    (hclosed : s.life.stance.outbound.reader.ending = some .closed) :
    I.Reads s₀ s trace s.life.stance.outbound.reader.received := by
  obtain ⟨r, hspot, hreceived⟩ := h.candid.received h.delivered hclosed
  have hcancelled : s.life.stance.Hindered → s.life.stance.cancelled = true := by
    rintro (hcancelled | ⟨how, hending, hhow⟩)
    · exact hcancelled
    · exact absurd (Option.some.inj (hending.symm.trans hclosed)) hhow
  have hstands := h.stands
  rw [hspot] at hstands
  rw [hreceived]
  -- where it stands when it is cut short
  have hcut : s.life.stance.cancelled = true → I.Sends trace s.life.stance.accepted →
      I.Reads s₀ s trace
        (s.life.stance.accepted.map .ok ++ [.error ServiceError.cancelled.status]) := by
    rintro hcut (hnone | ⟨users, hlists, hprefix⟩)
    · exact .cancelled hcut (.inl hnone)
    · exact .cancelled hcut (.inr ⟨users, hlists.between hruns, hprefix⟩)
  cases hstands with
  | rejected htrace haccepted hout =>
    rw [haccepted]
    exact .rejected hout
  | cut hcutoff hsends => exact hcut hcutoff hsends
  | @ended _ b _ hb hends =>
    obtain ⟨hrefuses, hnone, rfl⟩ | ⟨hhindered, rfl, hsends⟩ | ⟨listing, hlists, hanswer⟩ := hends
    · rw [hnone]
      exact .refused hrefuses
    · exact hcut (hcancelled (hb hhindered)) hsends
    · -- the store has been asked, and has given users or not
      rw [hanswer]
      have hbetween := hlists.between hruns
      obtain ⟨opening, before, now, x, s₁, _, _, _, hopening, _, hmoment⟩ := hbetween
      have htidy := (hopening.reachable ht).tidy
      obtain ⟨users, rfl, hascending⟩ | ⟨f, token, hop, htoken, hbad, rfl⟩ :=
        listing_cases htidy hmoment
      · by_cases hne : users = []
        · subst hne
          exact .nobody (hlists.between hruns)
        · rw [I.answer_ok hne]
          exact .users (hlists.between hruns) hne hascending
      · exact .badToken ((hI.token before f hop).symm.trans htoken) hbad

/-- What is told where nothing hinders the call, from what has been asked last. -/
def Inquiry.told (I : Inquiry) (trace : List Asked) : List (Response User) :=
  match trace.getLast? with
  | some (.store _ x) => (listed x).elim [] I.answer
  | _ => [.error outOfRange.status]

/-- Where nothing hinders the call, what is received only depends on what the clock and the store have
said. -/
theorem Inquiry.received_eq (h : Alone.Keeps I.Sends I.Ends a trace s.life)
    (huncancelled : s.life.stance.cancelled = false) (hadmitted : s.life.admitted = true)
    (hclosed : s.life.stance.outbound.reader.ending = some .closed) :
    s.life.stance.outbound.reader.received = I.told trace := by
  obtain ⟨r, hspot, hreceived⟩ := h.candid.received h.delivered hclosed
  have hstands := h.stands
  rw [hspot] at hstands
  rw [hreceived]
  unfold told
  cases hstands with
  | rejected htrace haccepted hout => cases hadmitted.symm.trans hout
  | cut hcutoff hsends => cases huncancelled.symm.trans hcutoff
  | @ended _ b _ hb hends =>
    obtain ⟨⟨age, now, _, rfl, _⟩, hnone, rfl⟩ | ⟨hhindered, _, _⟩
      | ⟨listing, ⟨opening, before, now, x, _, rfl, _, hlisted⟩, hanswer⟩ := hends
    · rw [hnone]
      rfl
    · obtain hcancelled | ⟨how, hending, hhow⟩ := hb hhindered
      · cases huncancelled.symm.trans hcancelled
      · exact absurd (Option.some.inj (hending.symm.trans hclosed)) hhow
    · rw [hanswer, List.getLast?_concat]
      simp only [hlisted]
      rfl

end

/-! ## §4. Both methods. -/

/-- The call of a listing that is made through the server, with a channel of some capacity and a reader
who reads in some manner. -/
abbrev listingCall (a : Action User Unit) (inbound : Inbound Empty) (capacity : Nat)
    (enough : Option Nat) (attentive : Bool) (t : Table) : Alone Empty User Unit Unit :=
  .start (.ofAction a) true inbound (.ofCapacity capacity ⟨enough, attentive, [], none⟩) t

/-- A listing is never cut short without a word, whatever others do to the store meanwhile, however
large the channel is, at whatever pace it is read, and whenever the call is cancelled. -/
structure TellsAll (a : Action User Unit) (I : Inquiry) : Prop where
  /-- whoever reads to the end -/
  read : ∀ (inbound : Inbound Empty) (capacity : Nat) (enough : Option Nat) (attentive : Bool)
    (t₀ : Table) (trace : List Asked) (s : Alone Empty User Unit Unit), t₀.Reachable →
    (listingCall a inbound capacity enough attentive t₀).RunsAmong trace s →
    s.life.stance.outbound.reader.ending = some .closed →
    I.Reads (listingCall a inbound capacity enough attentive t₀) s trace
      s.life.stance.outbound.reader.received
  /-- an error is the last that is read -/
  last : ∀ (inbound : Inbound Empty) (capacity : Nat) (enough : Option Nat) (attentive : Bool)
    (t₀ : Table) (trace : List Asked) (s : Alone Empty User Unit Unit)
    (before after : List (Response User)) (status : Status),
    (listingCall a inbound capacity enough attentive t₀).RunsAmong trace s →
    s.life.stance.outbound.reader.received = before ++ .error status :: after → after = []
  /-- what is read in a call that is not cancelled is decided by what the clock and the store have said,
  and not by the channel or the reader -/
  decided : ∀ (inbound : Inbound Empty) (capacity : Nat) (enough : Option Nat) (attentive : Bool)
    (t₀ : Table) (trace : List Asked) (s : Alone Empty User Unit Unit),
    (listingCall a inbound capacity enough attentive t₀).RunsAmong trace s →
    s.life.stance.cancelled = false → s.life.admitted = true →
    s.life.stance.outbound.reader.ending = some .closed →
    s.life.stance.outbound.reader.received = I.told trace
  /-- calls that are executed are such calls, what they read of the clock is what it shows then, and none
  whose handler has worked is one that the chain has not let through -/
  executed : ∀ (cancelAt : Option Nat) (inbound : Inbound Empty) (context : Context) (tie : Tie)
    (cancelled : Bool) (capacity : Nat) (enough : Option Nat) (attentive : Bool) (w w' : World)
    (t₀ : Table) (shown : List (Instant × Instant)) (e : Exchange Empty User Unit Unit), w.Holds t₀ →
    Exchange.GoesAmong (.start .served cancelAt (.start (.ofAction a) inbound
      { CallState.start context tie (.ofCapacity capacity ⟨enough, attentive, [], none⟩) w.clock with
        cancelled }), w) shown (e, w') →
    ∃ trace s, (listingCall a inbound capacity enough attentive t₀).RunsAmong trace s
      ∧ ReadIn shown (trace.map Asked.reading) ∧ s.Shows e w'
      ∧ s.life.stance.outbound = e.state.outbound ∧ (e.entered = true → s.life.admitted = true)

/-- So it is with every listing that asks the store once and sends what it is given. -/
theorem tellsAll_of_yields {a : Action User Unit} {I : Inquiry} (hI : I.Sound)
    (ha : a.program.Yields I.Sends I.Ends false [] []) : TellsAll a I where
  read inbound capacity enough attentive t₀ trace s ht hruns hclosed := by
    have h := (Alone.keeps_start I.Sends I.Ends a inbound capacity enough attentive).runs ha hruns
    exact I.reads_of_keeps hI ht hruns h hclosed
  last inbound capacity enough attentive t₀ trace s before after status hruns hread := by
    have h := (Alone.keeps_start I.Sends I.Ends a inbound capacity enough attentive).runs ha hruns
    exact h.delivered.eq_nil_of_error hread
  decided inbound capacity enough attentive t₀ trace s hruns huncancelled hadmitted hclosed := by
    have h := (Alone.keeps_start I.Sends I.Ends a inbound capacity enough attentive).runs ha hruns
    exact I.received_eq h huncancelled hadmitted hclosed
  executed cancelAt inbound context tie cancelled capacity enough attentive w w' t₀ shown e hw hgoes := by
    have hserved : Manner.served ≠ .bare := nofun
    obtain ⟨trace, s, hruns, hread, hshows⟩ := (Alone.shows_start hw (.ofAction a) hserved cancelAt inbound
      context tie cancelled (.ofCapacity capacity ⟨enough, attentive, [], none⟩) rfl).goesAmong hgoes
    exact ⟨trace, s, hruns, hread, hshows, hshows.call.state.1.outbound, hshows.call.admitted⟩

/-- Both methods that list users tell all. -/
theorem listings_tell_all :
    (∀ q : ListUsersRequest, TellsAll (listUsers q) (inquiryOf q))
    ∧ ∀ q : UserRoleRequest, TellsAll (listUsersByRole q) (inquiryByRole q) := by
  refine ⟨fun q => tellsAll_of_yields ⟨?_⟩ (yields_listUsers q),
    fun q => tellsAll_of_yields ⟨?_⟩ (yields_listUsersByRole q)⟩
  · intro before f hop
    cases hop
    rfl
  · intro before f hop
    cases hop

/-- Two members are stored. -/
def twoMembers : Table :=
  Store.tableAfter [.add (Store.reader 1 "ada"), .add (Store.reader 2 "eve")]

/-- A call by which the members are listed, through a channel with room for one, to a reader who takes
their time. -/
def membersCall : Exchange Empty User Unit Unit :=
  .start .served none (.start (.ofAction (listUsersByRole ⟨.member⟩)) .empty
    { CallState.start ((Request.listUsersByRole ⟨.member⟩).context none) .nothing
        (.ofCapacity 1 ⟨none, false, [], none⟩) 0 with cancelled := false })

/-- The second member is removed while the first one waits to be read, and is read all the same. -/
theorem listings_tell_all_twoMembers :
    ∃ e w shown, Exchange.GoesAmong (membersCall, .start .epoch none ⟨.memory twoMembers, [], []⟩) shown
        (e, w)
      ∧ e.state.outbound.reader.messages.map (·.id) = [1, 2]
      ∧ e.state.outbound.reader.ending = some .closed
      ∧ ∃ trace s, ReadIn shown (trace.map Asked.reading) ∧ (inquiryByRole ⟨.member⟩).Reads
          (listingCall (listUsersByRole ⟨.member⟩) .empty 1 none false twoMembers) s trace
          e.state.outbound.reader.received := by
  have hw : World.Holds (.start .epoch none ⟨.memory twoMembers, [], []⟩) twoMembers := ⟨rfl, nofun⟩
  have hwork := Exchange.GoesAmong.refl.move
    (.work membersCall (.start .epoch none ⟨.memory twoMembers, [], []⟩))
  have hothers := hwork.others .epoch (.delete 2)
  have hread := (hothers.move (.read _ _)).move (.work _ _)
  have hgoes := hread.move (.read _ _)
  have htells := listings_tell_all.2 ⟨.member⟩
  obtain ⟨trace, s, hruns, hshown, hshows, houtbound, _⟩ := htells.executed none .empty
    ((Request.listUsersByRole ⟨.member⟩).context none) .nothing false 1 none false
    (.start .epoch none ⟨.memory twoMembers, [], []⟩) _ twoMembers _ _ hw hgoes
  have hclosed : s.life.stance.outbound.reader.ending = some .closed := by
    rw [houtbound]
    decide +kernel
  have hreads := htells.read .empty 1 none false twoMembers trace s
    (Store.reachable_tableAfter _) hruns hclosed
  rw [houtbound] at hreads
  exact ⟨_, _, _, hgoes, by decide +kernel, by decide +kernel, trace, s, hshown, hreads⟩

end UserDirectory.Service
