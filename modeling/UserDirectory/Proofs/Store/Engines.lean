import UserDirectory.Proofs.Store.Relational.Agreement
import UserDirectory.Proofs.Store.Relational.PlainDatabase
import UserDirectory.Store.Backend
/-!
# Both kinds of stores

Whatever is asked of them, a store in a database gives what a store in memory gives, as long as the
database keeps without loss what it is sent.

Main statements:
  * `Matches.perform`: what one operation does to stores that match;
  * `relational_outcomes_eq`: whole runs, from empty stores on.
-/

namespace UserDirectory.Store

open UserDirectory.Store.Relational
open UserDirectory.Time (Instant)

/-- Whether a database keeps without loss what an operation sends: the instants are of whole
microseconds, a user has a number and a date of creation, and no text has the character of number
zero. -/
def Operation.isKept (now : Instant) (op : Operation) : Bool :=
  isExactOperation now op
    && match queryOf now op with
      | .ok q => q.parameters.all Parameter.isBindable
      | .error _ => true

namespace Engine

/-- What operations give, one after another, each at an instant of its own. -/
def outcomes : Engine → List (Instant × Operation) → List (Σ op : Operation, op.Outcome)
  | _, [] => []
  | e, (now, op) :: more => ⟨op, (e.perform now op).1⟩ :: outcomes (e.perform now op).2.1 more

/-- A store in a database and one in memory that hold the same. -/
inductive Matches : Engine → Engine → Prop
  | intro {server : Server} {history : List Query} {t : Table} (hserver : server.IsDatabase)
      (hsent : ∀ q ∈ history, q.IsSent) (hrows : Mirrors t (rowsAfter history)) :
      Matches (relational server history) (memory t)

variable {e e' : Engine}

/-- Empty stores match. -/
theorem Matches.empty {server : Server} (hserver : server.IsDatabase) :
    Matches (relational server []) (memory .empty) := by
  refine .intro hserver (fun q hq => by cases hq) ⟨.nil, Table.Tidy.empty, fun u hu => ?_⟩
  cases hu

/-- An operation gives the same on stores that match, and leaves stores that match. -/
theorem Matches.perform {now : Instant} {op : Operation} (h : Matches e e')
    (hop : op.isKept now = true) :
    (e.perform now op).1 = (e'.perform now op).1
      ∧ Matches (e.perform now op).2.1 (e'.perform now op).2.1 := by
  obtain ⟨hserver, hsent, hrows⟩ := h
  rename_i server history t
  unfold Operation.isKept at hop
  rw [Bool.and_eq_true] at hop
  obtain ⟨hexact, hbound⟩ := hop
  cases hq : queryOf now op with
  | error cause =>
    -- nothing is sent
    have hleft : (relational server history).perform now op
        = (.error cause, relational server history, []) := by
      simp only [Engine.perform, hq]
    have hright : (memory t).perform now op = (.error cause, memory t, []) := by
      simp only [Engine.perform, perform_of_queryOf_error t hq]
    rw [hleft, hright]
    exact ⟨rfl, .intro hserver hsent hrows⟩
  | ok q =>
    -- one statement is sent, and the database has seen it after those before
    rw [hq] at hbound
    have hsent' : ∀ q' ∈ history ++ [q], q'.IsSent := by
      intro q' hq'
      rcases List.mem_append.1 hq' with hq' | hq'
      · exact hsent q' hq'
      · rw [List.mem_singleton.1 hq']
        exact ⟨⟨now, op, hq⟩, List.all_eq_true.1 hbound⟩
    have hagrees := hrows.agrees hexact hq (hserver history q hsent')
    have hleft : (relational server history).perform now op
        = (interpret op (server history q), relational server (history ++ [q]),
          noteOf op (server history q)) := by
      simp only [Engine.perform, hq]
    have hafter : rowsAfter (history ++ [q]) = q.after (rowsAfter history) := List.foldl_append
    rw [hleft]
    refine ⟨hagrees.outcome, .intro hserver hsent' ?_⟩
    rw [hafter]
    exact hagrees.mirrors

/-- Stores that match give the same in every run. -/
theorem Matches.outcomes (h : Matches e e') {ops : List (Instant × Operation)}
    (hops : ∀ p ∈ ops, p.2.isKept p.1 = true) : e.outcomes ops = e'.outcomes ops := by
  induction ops generalizing e e' with
  | nil => rfl
  | cons p more ih =>
    obtain ⟨hsame, hmatches⟩ := h.perform (hops p List.mem_cons_self)
    have hmore := ih hmatches fun p' hp' => hops p' (List.mem_cons_of_mem _ hp')
    unfold Engine.outcomes
    rw [hsame, hmore]

/-- From empty stores on, a store in a database gives what a store in memory gives, in every run of
operations that the database keeps without loss. -/
theorem relational_outcomes_eq {server : Server} (hserver : server.IsDatabase)
    (ops : List (Instant × Operation)) (hops : ∀ p ∈ ops, p.2.isKept p.1 = true) :
    (relational server []).outcomes ops = (memory .empty).outcomes ops :=
  (Matches.empty hserver).outcomes hops

/-- A new user. -/
def anna : User where
  id := 7
  username := "anna"
  role := .member
  status := none
  email := some "anna@roster"
  phone := none
  profile := none
  tags := ["first"]
  metadata := .ofList [("team", "red")]
  addresses := []
  createDate := none
  lastLogin := none

/-- Another user, with a smaller number. -/
def bert : User := { anna with id := 3, username := "bert" }

/-- Two users are added, names and numbers that are there are refused, and one of them goes again. -/
def twoUsers : List (Instant × Operation) :=
  [.add anna, .add bert, .add { bert with id := 9 }, .add { bert with id := 7 },
   .update { bert with username := "anna", createDate := some .epoch },
   .list { ListFilter.everyone with status := some .active, pageSize := 1 }, .delete 3,
   .get 3].map fun op => (.epoch, op)

theorem relational_outcomes_eq_twoUsers :
    (relational plainServer []).outcomes twoUsers
      = [⟨.add anna, Except.ok ()⟩, ⟨.add bert, Except.ok ()⟩,
         ⟨.add { bert with id := 9 }, Except.error (.usernameTaken "bert")⟩,
         ⟨.add { bert with id := 7 }, Except.error (.alreadyExists 7)⟩,
         ⟨.update { bert with username := "anna", createDate := some .epoch },
          Except.error (.usernameTaken "anna")⟩,
         ⟨.list { ListFilter.everyone with status := some .active, pageSize := 1 },
          Except.ok [withDefaults bert .epoch]⟩,
         ⟨.delete 3, Except.ok ()⟩, ⟨.get 3, Except.error (.notFound 3)⟩] := by
  have hkept : ∀ p ∈ twoUsers, p.2.isKept p.1 = true := by
    have hall : (twoUsers.all fun p => p.2.isKept p.1) = true := by decide +kernel
    exact List.all_eq_true.1 hall
  rw [relational_outcomes_eq isDatabase_plainServer twoUsers hkept]
  rfl

end Engine

end UserDirectory.Store
