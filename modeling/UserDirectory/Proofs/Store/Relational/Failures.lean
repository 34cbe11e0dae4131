import UserDirectory.Proofs.Errors
import UserDirectory.Service.Error
import UserDirectory.Store.Relational.Engine
/-!
# Failures of a database

A database fails an operation in many ways: it refuses the statement, it cannot be reached, what comes
cannot be read, or it can be read and is no user.  That a name or number is there already is no such
failure; it has a meaning of its own.

Main statements:
  * `Reply.fails_failed`, `Reply.fails_get`, `Reply.fails_list`, `Reply.fails_listByRole`: which replies
    fail;
  * `Reply.Fails.interpret`: all that comes of them is that something behind the store failed.
-/

namespace UserDirectory.Store.Relational

open UserDirectory.Json (Codec)
open UserDirectory.Service (isBackend)
open UserDirectory.Time (Instant)

/-! ## §1. Rows that are no users. -/

/-- A row that is no user: a column cannot be read, or a number in it means nothing. -/
def Cells.IsNoUser (c : Cells) : Prop := ∀ r u, c.read = .ok r → r.toUser ≠ .ok u

/-- A failure that is not about something that is there already. -/
def NoViolation (cause : BackendFailure) : Prop := isUniqueViolation cause = false

/-- What is stored is no user. -/
def IsCorrupt (e : StoreError) : Prop := ∃ reason, e = .corrupt reason

section

variable {α : Type} (c : Column)

theorem unreadable_errors (reason : String) : ErrorsAre NoViolation (unreadable c reason : Except _ α) :=
  errorsAre_error rfl

theorem needed_errors (a : Option α) : ErrorsAre NoViolation (needed c a) := by
  cases a with
  | some a => exact errorsAre_ok a
  | none => exact unreadable_errors c _

theorem nested_errors (codec : Codec α) (text : String) :
    ErrorsAre NoViolation (nested c codec text) := by
  unfold nested
  split
  · exact errorsAre_ok _
  · exact unreadable_errors c _

theorem nestedOptional_errors (codec : Codec α) (text : Option String) :
    ErrorsAre NoViolation (nestedOptional c codec text) := by
  cases text with
  | none => exact errorsAre_ok none
  | some text => exact (nested_errors c codec text).map some

theorem allTexts_errors (texts : List (Option String)) :
    ErrorsAre NoViolation (allTexts c texts) := by
  induction texts with
  | nil => exact errorsAre_ok []
  | cons t more ih => exact (needed_errors c t).bind fun _ => ih.bind fun _ => errorsAre_ok _

end

/-- What cannot be read is not about something that is there already. -/
theorem Cells.read_errors (c : Cells) : ErrorsAre NoViolation c.read :=
  (needed_errors _ _).bind fun _ => (needed_errors _ _).bind fun _ =>
  (needed_errors _ _).bind fun _ => (nestedOptional_errors _ _ _).bind fun _ =>
  (needed_errors _ _).bind fun _ => (allTexts_errors _ _).bind fun _ =>
  (needed_errors _ _).bind fun _ => (nested_errors _ _ _).bind fun _ =>
  (needed_errors _ _).bind fun _ => (nested_errors _ _ _).bind fun _ =>
  (needed_errors _ _).bind fun _ => errorsAre_ok _

theorem readRows_errors (rows : List Cells) : ErrorsAre NoViolation (readRows rows) := by
  induction rows with
  | nil => exact errorsAre_ok []
  | cons c more ih => exact c.read_errors.bind fun _ => ih.bind fun _ => errorsAre_ok _

theorem badCode_errors {α : Type} (id : UInt32) (what : String) (code : Int) :
    ErrorsAre IsCorrupt (badCode id what code : Except StoreError α) := errorsAre_error ⟨_, rfl⟩

/-- A row that is no user is corrupt. -/
theorem UserRow.toUser_errors (r : UserRow) : ErrorsAre IsCorrupt r.toUser := by
  have hid : ErrorsAre IsCorrupt (idOf r.id) := by
    unfold idOf
    split
    · exact errorsAre_ok _
    · exact errorsAre_error ⟨_, rfl⟩
  have hrole : ∀ id, ErrorsAre IsCorrupt (roleOf id r.role) := by
    intro id
    unfold roleOf
    split
    · exact errorsAre_ok _
    · exact badCode_errors _ _ _
  have hstatus : ∀ id, ErrorsAre IsCorrupt (statusOf id r.status) := by
    intro id
    unfold statusOf
    split
    · exact errorsAre_ok _
    · split
      · exact errorsAre_ok _
      · exact badCode_errors _ _ _
  exact hid.bind fun id => (hrole id).bind fun _ => (hstatus id).bind fun _ => errorsAre_ok _

theorem toUsers_errors (rows : List UserRow) : ErrorsAre IsCorrupt (toUsers rows) := by
  induction rows with
  | nil => exact errorsAre_ok []
  | cons r more ih => exact r.toUser_errors.bind fun _ => ih.bind fun _ => errorsAre_ok _

/-- Rows among which one is no user are not all read as users. -/
theorem toUsers_ne_ok {rows : List Cells} {c : Cells} (hmem : c ∈ rows) (hc : c.IsNoUser) :
    ∀ {read users}, readRows rows = .ok read → toUsers read ≠ .ok users := by
  induction rows with
  | nil => cases hmem
  | cons d more ih =>
    intro read users hread husers
    obtain ⟨r, hr, hread⟩ := bind_eq_ok.1 hread
    obtain ⟨rs, hrs, hread⟩ := bind_eq_ok.1 hread
    cases hread
    obtain ⟨u, hu, husers⟩ := bind_eq_ok.1 husers
    obtain ⟨us, hus, _⟩ := bind_eq_ok.1 husers
    cases hmem with
    | head => exact hc r u hr hu
    | tail _ hmem => exact ih hmem hrs hus

/-! ## §2. Replies that fail. -/

/-- A reply to an operation that fails for a reason behind the store. -/
inductive Reply.Fails (op : Operation) (r : Reply) : Prop
  /-- the database failed, but not because something is there already -/
  | database {cause : BackendFailure} (h : fetch op r = .error cause) (hother : NoViolation cause)
  /-- what came is not what it should be -/
  | corrupt {fetched : Fetched op} {reason : String} (h : fetch op r = .ok fetched)
      (hbad : outcomeOf op fetched = .error (.corrupt reason))

namespace Reply

variable {op : Operation} {r : Reply}

/-- All that comes of a reply that fails is that something behind the store failed. -/
theorem Fails.interpret (h : r.Fails op) :
    ∃ e, interpret op r = .error e ∧ isBackend e = true := by
  unfold Relational.interpret
  cases h with
  | @database cause h hother =>
    rw [h]
    unfold NoViolation at hother
    refine ⟨_, rfl, ?_⟩
    cases op with
    | add u => simp only [errorOf, hother]; rfl
    | update u => simp only [errorOf, hother]; rfl
    | _ => rfl
  | corrupt h hbad =>
    rw [h]
    exact ⟨_, hbad, rfl⟩

/-- A database that fails for another reason than that something is there already fails any operation. -/
theorem fails_failed (op : Operation) {cause : BackendFailure} (h : NoViolation cause) :
    (Reply.failed cause).Fails op :=
  .database (by cases op <;> rfl) h

/-- Whoever is looked up by number is taken from the first row; it fails if this is no user. -/
theorem fails_get (id : UInt32) {c : Cells} (hc : c.IsNoUser) (more : List Cells) (n : Nat) :
    (Reply.done (.users (c :: more)) n).Fails (.get id) := by
  have hfetch : fetch (.get id) (.done (.users (c :: more)) n) = c.read.map some := rfl
  cases hread : c.read with
  | error cause =>
    rw [hread] at hfetch
    exact .database hfetch (c.read_errors _ hread)
  | ok row =>
    rw [hread] at hfetch
    cases huser : row.toUser with
    | ok u => exact absurd huser (hc row u hread)
    | error e =>
      obtain ⟨reason, rfl⟩ := row.toUser_errors _ huser
      exact .corrupt hfetch huser

/-- What comes of rows for a listing among which one is no user. -/
theorem exists_of_isNoUser {rows : List Cells} {c : Cells} (hmem : c ∈ rows) (hc : c.IsNoUser) :
    (∃ cause, readRows rows = .error cause ∧ NoViolation cause)
      ∨ ∃ read reason, readRows rows = .ok read ∧ toUsers read = .error (.corrupt reason) := by
  cases hread : readRows rows with
  | error cause => exact .inl ⟨cause, rfl, readRows_errors rows _ hread⟩
  | ok read =>
    cases husers : toUsers read with
    | ok users => exact absurd husers (toUsers_ne_ok hmem hc hread)
    | error e =>
      obtain ⟨reason, rfl⟩ := toUsers_errors read _ husers
      exact .inr ⟨read, reason, rfl, husers⟩

/-- A listing fails if any of its rows is no user. -/
theorem fails_list (f : ListFilter) {rows : List Cells} {c : Cells} (hmem : c ∈ rows)
    (hc : c.IsNoUser) (n : Nat) : (Reply.done (.users rows) n).Fails (.list f) := by
  rcases exists_of_isNoUser hmem hc with ⟨cause, hread, hcause⟩ | ⟨read, reason, hread, husers⟩
  · exact .database hread hcause
  · exact .corrupt hread husers

/-- So does one of the users with a role. -/
theorem fails_listByRole (role : Role) {rows : List Cells} {c : Cells} (hmem : c ∈ rows)
    (hc : c.IsNoUser) (n : Nat) : (Reply.done (.users rows) n).Fails (.listByRole role) := by
  rcases exists_of_isNoUser hmem hc with ⟨cause, hread, hcause⟩ | ⟨read, reason, hread, husers⟩
  · exact .database hread hcause
  · exact .corrupt hread husers

end Reply

/-! ## §3. Databases that fail alike. -/

/-- Two databases that reply the same to whatever an operation asks, or both with a failure. -/
def Server.FailsLike (server server' : Server) : Prop :=
  ∀ history q now op, queryOf now op = .ok q →
    server' history q = server history q
      ∨ (server history q).Fails op ∧ (server' history q).Fails op

end UserDirectory.Store.Relational
