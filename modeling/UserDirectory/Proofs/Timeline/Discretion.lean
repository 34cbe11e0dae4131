import UserDirectory.Proofs.Service.Discretion
import UserDirectory.Proofs.Timeline.Erasure
/-!
# What callers are not told

Requests come to a server whose store is in a database.  How the database failed is told to nobody who
calls; and whoever is not known is told of what kind the fault is, and nothing else.

Main statements:
  * `passAll_eq_of_failsLike`: callers cannot tell two databases from each other that fail alike;
  * `Visit.told_of_unknown`: what a caller is told who is not known;
  * `failures_look_alike`: both, whatever comes to the server.
-/

namespace UserDirectory.Access

/-- Two reasons why a caller is not known, of one variant. -/
inductive AuthError.SameVariant : AuthError → AuthError → Prop
  | same (e : AuthError) : SameVariant e e
  | internal (reason reason' : String) : SameVariant (.internal reason) (.internal reason')

/-- Nothing but the variant is told. -/
theorem AuthError.SameVariant.status_eq {e e' : AuthError} (h : e.SameVariant e') :
    (Service.ServiceError.unauthenticated e').status
      = (Service.ServiceError.unauthenticated e).status := by
  cases h with
  | same e => rfl
  | internal reason reason' => rfl

end UserDirectory.Access

namespace UserDirectory.Timeline

open UserDirectory.Access (AuthError)
open UserDirectory.Call
open UserDirectory.Service (Request ServiceError Status)
open UserDirectory.Store (Operation)
open UserDirectory.Store.Relational
open UserDirectory.Time (Instant)

/-! ## §1. What happens at a server. -/

/-- What happens at a server. -/
inductive Happening
  /-- a request comes -/
  | visit (v : Visit)
  /-- some milliseconds go by -/
  | pause (ms : Nat)

/-- What callers are told while something happens, and the time after that. -/
def Happening.pass : Happening → Timeline → List (Σ v : Visit, Answer v.request) × Timeline
  | visit v, t =>
    let (answer, t) := v.pay t
    ([⟨v, answer⟩], t)
  | pause ms, t => ([], t.sleep ms)

/-- What callers are told while one thing happens after another, and the time after that. -/
def passAll : List Happening → Timeline → List (Σ v : Visit, Answer v.request) × Timeline
  | [], t => ([], t)
  | x :: more, t =>
    let (answers, t) := x.pass t
    let (others, t) := passAll more t
    (answers ++ others, t)

/-- A timeline whose store is in a database that has been asked some questions. -/
def onDatabase (t : Timeline) (server : Server) (history : List Query) : Timeline :=
  t.mapWorld fun w => { w with backend := { w.backend with engine := .relational server history } }

section

variable {l : Likeness} {t t' : Timeline}

/-- In timelines that are like each other a request is answered the same. -/
theorem Visit.pay_like (hl : l.OfFailures) (h : Like l t t') (v : Visit) :
    (v.pay t').1 = (v.pay t).1 ∧ Like l (v.pay t).2 (v.pay t').2 := by
  have hcall : ∀ now, Exchange.Like l (served v.request v.metadata v.channel now)
      (served v.request v.metadata v.channel now) := fun now =>
    .start (v.request.heedless_handler hl) _ _ _ _
  have hcome : Like l (v.arrive t) (v.arrive t') := h.setWall v.wall
  unfold pay serve
  rw [hcome.clock]
  exact call_like hcome (hcall _) v.patience

theorem Happening.pass_like (hl : l.OfFailures) (h : Like l t t') (x : Happening) :
    (x.pass t').1 = (x.pass t).1 ∧ Like l (x.pass t).2 (x.pass t').2 := by
  cases x with
  | visit v =>
    obtain ⟨hanswer, hlike⟩ := v.pay_like hl h
    refine ⟨?_, hlike⟩
    show [(⟨v, (v.pay t').1⟩ : Σ v : Visit, Answer v.request)] = [⟨v, (v.pay t).1⟩]
    rw [hanswer]
  | pause ms => exact ⟨rfl, sleep_like h ms⟩

theorem passAll_like (hl : l.OfFailures) (h : Like l t t') (course : List Happening) :
    (passAll course t').1 = (passAll course t).1 := by
  induction course generalizing t t' with
  | nil => rfl
  | cons x more ih =>
    obtain ⟨hanswers, hlike⟩ := x.pass_like hl h
    show (x.pass t').1 ++ (passAll more (x.pass t').2).1
      = (x.pass t).1 ++ (passAll more (x.pass t).2).1
    rw [hanswers, ih hlike]

end

/-- Callers cannot tell two databases from each other that fail alike. -/
theorem passAll_eq_of_failsLike {server server' : Server} (h : server.FailsLike server')
    (history : List Query) (t : Timeline) (course : List Happening) :
    (passAll course (t.onDatabase server' history)).1 = (passAll course (t.onDatabase server history)).1 := by
  have hlike : Like (.databases h) (t.onDatabase server history) (t.onDatabase server' history) :=
    ⟨⟨rfl, t.world.log, t.world.metrics, _, ⟨history, rfl, rfl⟩, rfl⟩, rfl, rfl⟩
  exact passAll_like (Likeness.ofFailures_databases h) hlike course

/-! ## §2. Callers who are not known. -/

/-- All that the caller of a request gets is a status: it is how the call ends and the only thing that
the caller can have read. -/
structure Visit.Told (v : Visit) (t : Timeline) (status : Status) : Prop where
  result : ∃ cause, (v.pay t).1.result = some (.error cause) ∧ cause.status = status
  reader : (v.pay t).1.reader = toldReader v.enough v.attentive status

/-- A caller who is not known is told so, and nothing else. -/
theorem Visit.told_of_unknown {v : Visit} {t : Timeline} {g : Gate} {e : AuthError}
    (hg : t.world.gate = some g)
    (hknown : g.authority.authenticate v.metadata (Int64.ofInt v.wall.seconds) = .error e) :
    v.Told t (ServiceError.unauthenticated e).status := by
  have hjudge : g.judge v.context.metadata (v.arrive t).world.second v.context.method
      = .error (.unauthenticated e) := by
    rw [v.context_eq.1]
    exact Gate.judge_of_unknown hknown
  obtain ⟨w', _, _, hcall⟩ := call_of_refused (t := v.arrive t) v.request.method.Response v.capacity
    v.enough v.attentive t.world.clock v.patience hg hjudge
  have hpay : (v.pay t).1 = ⟨some (.error (.unauthenticated e)),
      toldReader v.enough v.attentive (ServiceError.unauthenticated e).status, false⟩ :=
    congrArg Prod.fst (hcall _ _ _ v.request.handler v.request.inbound)
  exact ⟨⟨_, congrArg Exchange.Report.result hpay, rfl⟩, congrArg Exchange.Report.reader hpay⟩

/-! ## §3. What is told. -/

/-- Whatever comes to a server, and whatever is planned there: its callers are told the same if its
database fails in other ways; and any two callers who are not known, at any two servers, are told the
same if the reasons are of one variant. -/
theorem failures_look_alike {server server' : Server} (h : server.FailsLike server')
    (history : List Query) (t : Timeline) (course : List Happening) :
    (passAll course (t.onDatabase server' history)).1 = (passAll course (t.onDatabase server history)).1
      ∧ ∀ (v v' : Visit) (t t' : Timeline) (g g' : Gate) (e e' : AuthError),
          t.world.gate = some g → t'.world.gate = some g' →
          g.authority.authenticate v.metadata (Int64.ofInt v.wall.seconds) = .error e →
          g'.authority.authenticate v'.metadata (Int64.ofInt v'.wall.seconds) = .error e' →
          e.SameVariant e' → ∃ status, v.Told t status ∧ v'.Told t' status := by
  refine ⟨passAll_eq_of_failsLike h history t course, ?_⟩
  intro v v' t t' g g' e e' hg hg' hknown hknown' hvariant
  refine ⟨_, Visit.told_of_unknown hg hknown, ?_⟩
  rw [← hvariant.status_eq]
  exact Visit.told_of_unknown hg' hknown'

/-- A row whose role is none. -/
def strayRow : Cells :=
  ⟨some 1, some "ada", some 9, none, none, none, none, some [], some "\x7b\x7d", some "[]",
    some .epoch, none⟩

/-- A database to which nobody gets any more. -/
def closedServer : Server := fun _ _ => .failed .closed

/-- A database that refuses what is not asked for users, and has a row that is none. -/
def strayServer : Server := fun _ q =>
  match q.statement with
  | .select .. => .done (.users [strayRow]) 0
  | _ => .failed (.refused "57014" "canceling statement due to user request")

theorem strayRow_isNoUser : strayRow.IsNoUser := by
  intro r u hread huser
  have hcodes : strayRow.read.toOption.map (fun r => (r.id, r.role)) = some (1, 9) := by
    decide +kernel
  rw [hread] at hcodes
  obtain ⟨hid, hrole⟩ := Prod.mk.inj (Option.some.inj hcodes)
  unfold UserRow.toUser at huser
  rw [hid, hrole] at huser
  cases huser

theorem closedServer_failsLike : closedServer.FailsLike strayServer := by
  intro history q now op hq
  refine .inr ⟨Reply.fails_failed op rfl, ?_⟩
  cases op with
  | get id =>
    cases hq
    exact Reply.fails_get id strayRow_isNoUser [] 0
  | list f =>
    -- whatever the filter is, users are asked for
    cases hcursor : f.cursor with
    | error e =>
      rw [queryOf, hcursor] at hq
      cases hq
    | ok cursor =>
      rw [queryOf, hcursor] at hq
      cases hq
      exact Reply.fails_list f List.mem_cons_self strayRow_isNoUser 0
  | listByRole r =>
    cases hq
    exact Reply.fails_listByRole r List.mem_cons_self strayRow_isNoUser 0
  | _ =>
    cases hq
    exact Reply.fails_failed _ rfl

/-- Metadata with a token. -/
def presenting (token : List Char) : Metadata :=
  Metadata.empty.put Access.authorizationHeader
    ((Access.bearerWord ++ token).map fun c => UInt8.ofNat c.toNat)

/-- A gate all of whose codes are the same. -/
def carelessGate : Gate := ⟨⟨"directory", 3600, fun _ => [0]⟩, .rules Access.defaultRules⟩

/-- An admin and a stranger ask for a user, at a database that cannot be reached and at one where the
row is none; and two texts that are no tokens come to servers with other secrets. -/
theorem failures_look_alike_stray :
    let start := fun g => Timeline.start (.start .epoch (some g) .empty)
    let ask := fun metadata => Happening.visit
      ⟨.getUser ⟨1⟩, metadata, .epoch, 1, none, true, 0⟩
    let course := [ask (some (adminMetadata countingGate)), .pause 5, ask none]
    (passAll course ((start countingGate).onDatabase strayServer [])).1
        = (passAll course ((start countingGate).onDatabase closedServer [])).1
      ∧ ∃ status, (deletion (some (presenting ['x']))).Told (start countingGate) status
        ∧ (deletion (some (presenting ['y', '.']))).Told (start carelessGate) status := by
  intro start ask course
  obtain ⟨hsame, htold⟩ := failures_look_alike closedServer_failsLike [] (start countingGate) course
  exact ⟨hsame, htold _ _ _ _ countingGate carelessGate .malformedToken .malformedToken rfl rfl
    rfl rfl (.same _)⟩

end UserDirectory.Timeline
