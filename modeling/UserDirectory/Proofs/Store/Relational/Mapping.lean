import UserDirectory.Proofs.Errors
import UserDirectory.Proofs.Store.Relational.PlainDatabase
import UserDirectory.Proofs.Store.Relational.Row
/-!
# From rows to users and back

A row is taken for a user if the three numbers in it mean something.  Where a user is stored, a value is bound
for each column, and the statement says which is for which.  A date is bound as it is: only when it is sent
are the parts of a microsecond cut off.

Main definitions:
  * `UserRow.Flaw`: what is wrong with a row, that is with the first of its numbers that means nothing;
  * `Operation.boundRow?`: the row that an operation binds, column by column.

Main statements:
  * `UserRow.toUser_eq_ok_iff`: a row is taken for a user if it is the row of this user;
  * `UserRow.toUser_eq_error_iff`: a row with a flaw is refused for just this flaw;
  * `rows_map_exactly`: rows are taken for users, and users bound as rows, without loss.
-/

namespace UserDirectory

variable {n : Int}

/-- Whether a number stands for a role, or for a state of an account: there are four of each. -/
def IsCode (n : Int) : Prop := 0 ≤ n ∧ n ≤ 3

instance : Decidable (IsCode n) := inferInstanceAs (Decidable (0 ≤ n ∧ n ≤ 3))

theorem Role.ofCode?_eq_some_iff {r : Role} : Role.ofCode? n = some r ↔ n = r.code := by
  refine ⟨fun h => ?_, fun h => h ▸ Role.ofCode?_code r⟩
  unfold Role.ofCode? at h
  have hfound := List.find?_some h
  exact (of_decide_eq_true hfound).symm

theorem AccountStatus.ofCode?_eq_some_iff {s : AccountStatus} :
    AccountStatus.ofCode? n = some s ↔ n = s.code := by
  refine ⟨fun h => ?_, fun h => h ▸ AccountStatus.ofCode?_code s⟩
  unfold AccountStatus.ofCode? at h
  have hfound := List.find?_some h
  exact (of_decide_eq_true hfound).symm

/-- The numbers of roles are those from zero to three. -/
theorem Role.exists_code_iff : (∃ r : Role, n = r.code) ↔ IsCode n := by
  constructor
  · rintro ⟨r, rfl⟩
    cases r <;> decide
  · rintro ⟨hle, hge⟩
    obtain rfl | rfl | rfl | rfl : n = 0 ∨ n = 1 ∨ n = 2 ∨ n = 3 := by omega
    exacts [⟨.guest, rfl⟩, ⟨.member, rfl⟩, ⟨.admin, rfl⟩, ⟨.moderator, rfl⟩]

/-- The numbers of states are those from zero to three. -/
theorem AccountStatus.exists_code_iff : (∃ s : AccountStatus, n = s.code) ↔ IsCode n := by
  constructor
  · rintro ⟨s, rfl⟩
    cases s <;> decide
  · rintro ⟨hle, hge⟩
    obtain rfl | rfl | rfl | rfl : n = 0 ∨ n = 1 ∨ n = 2 ∨ n = 3 := by omega
    exacts [⟨.inactive, rfl⟩, ⟨.active, rfl⟩, ⟨.suspended, rfl⟩, ⟨.deleted, rfl⟩]

end UserDirectory

namespace UserDirectory.Store.Relational

open UserDirectory.Text
open UserDirectory.Time (Instant)

/-! ## §1. Rows that are users. -/

/-- Whether a number is that of a user who may be. -/
def IsUserNumber (n : Int) : Prop := 0 ≤ n ∧ n < 4_294_967_296

instance {n : Int} : Decidable (IsUserNumber n) := inferInstanceAs (Decidable (0 ≤ n ∧ n < 4_294_967_296))

/-- The digits of a number, with its sign. -/
def digitsOf (n : Int) : String := String.ofList (Decimal.writeInt n)

section

variable {n : Int} {id : UInt32} {role : Role} {status : Option AccountStatus} {code? : Option Int}

theorem exists_idOf_iff : (∃ id, idOf n = .ok id) ↔ IsUserNumber n := by
  simp only [idOf_eq_ok_iff]
  constructor
  · rintro ⟨id, rfl⟩
    have hlt := id.toNat_lt
    exact ⟨by omega, by omega⟩
  · rintro ⟨hle, hge⟩
    have hsame : (UInt32.ofNat n.toNat).toNat = n.toNat :=
      UInt32.toNat_ofNat_of_lt (by rw [UInt32.size]; omega)
    exact ⟨UInt32.ofNat n.toNat, by omega⟩

theorem idOf_of_not (h : ¬ IsUserNumber n) :
    idOf n = .error (.corrupt ("user id " ++ digitsOf n ++ " out of range")) := by
  refine if_neg fun hfits => h ⟨hfits.1, ?_⟩
  have hlt := hfits.2
  rw [UInt32.size] at hlt
  omega

/-- The number of a user is told by its digits. -/
theorem badCode_eq {α : Type} (what : String) (code : Int) :
    (badCode id what code : Except StoreError α)
      = .error (.corrupt ("user " ++ digitsOf id.toNat ++ (": " ++ what ++ " code ") ++ digitsOf code)) := by
  unfold badCode
  simp only [String.append_assoc]
  rfl

theorem roleOf_eq_ok_iff : roleOf id n = .ok role ↔ n = role.code := by
  rw [← Role.ofCode?_eq_some_iff, roleOf]
  cases Role.ofCode? n with
  | none => exact iff_of_false (by rintro ⟨⟩) (by rintro ⟨⟩)
  | some r => exact ⟨fun h => congrArg _ (Except.ok.inj h), fun h => congrArg _ (Option.some.inj h)⟩

theorem roleOf_of_not (h : ¬ IsCode n) : roleOf id n = badCode id "role" n := by
  unfold roleOf
  cases hcode : Role.ofCode? n with
  | none => rfl
  | some r => exact absurd (Role.exists_code_iff.1 ⟨r, Role.ofCode?_eq_some_iff.1 hcode⟩) h

theorem statusOf_eq_ok_iff : statusOf id code? = .ok status ↔ code? = status.map AccountStatus.code := by
  refine ⟨fun h => ?_, fun h => h ▸ statusOf_code id status⟩
  cases code? with
  | none =>
    cases h
    rfl
  | some code =>
    unfold statusOf at h
    cases hcode : AccountStatus.ofCode? code with
    | none =>
      simp only [hcode] at h
      cases h
    | some s =>
      simp only [hcode] at h
      cases h
      exact congrArg some (AccountStatus.ofCode?_eq_some_iff.1 hcode)

theorem exists_status_iff :
    (∃ s : Option AccountStatus, code? = s.map AccountStatus.code) ↔ ∀ code ∈ code?, IsCode code := by
  cases code? with
  | none => exact iff_of_true ⟨none, rfl⟩ nofun
  | some code =>
    constructor
    · rintro ⟨s, hs⟩ _ ⟨rfl⟩
      obtain ⟨a, _, ha⟩ := Option.map_eq_some_iff.1 hs.symm
      exact AccountStatus.exists_code_iff.1 ⟨a, ha.symm⟩
    · intro h
      obtain ⟨s, hs⟩ := AccountStatus.exists_code_iff.2 (h code rfl)
      exact ⟨some s, congrArg some hs⟩

theorem statusOf_of_not {code : Int} (h : ¬ IsCode code) :
    statusOf id (some code) = badCode id "status" code := by
  unfold statusOf
  simp only
  cases hcode : AccountStatus.ofCode? code with
  | none => rfl
  | some s =>
    exact absurd (AccountStatus.exists_code_iff.1 ⟨s, AccountStatus.ofCode?_eq_some_iff.1 hcode⟩) h

end

namespace UserRow

variable {r : UserRow} {u : User} {created : Instant} {text : String}

/-- Whether the three numbers of a row mean something. -/
def Fits (r : UserRow) : Prop :=
  IsUserNumber r.id ∧ IsCode r.role ∧ ∀ code ∈ r.status, IsCode code

/-- What is wrong with the first number of a row that means nothing: the number of the user comes before
that of the role, and this before that of the state. -/
inductive Flaw (r : UserRow) : String → Prop
  | id (h : ¬ IsUserNumber r.id) : Flaw r ("user id " ++ digitsOf r.id ++ " out of range")
  | role (hid : IsUserNumber r.id) (h : ¬ IsCode r.role) :
    Flaw r ("user " ++ digitsOf r.id ++ ": role code " ++ digitsOf r.role)
  | status (hid : IsUserNumber r.id) (hrole : IsCode r.role) {code : Int} (hcode : r.status = some code)
      (h : ¬ IsCode code) :
    Flaw r ("user " ++ digitsOf r.id ++ ": status code " ++ digitsOf code)

/-- A row is taken for a user if it is the row of this user, who has a date of creation. -/
theorem toUser_eq_ok_iff :
    r.toUser = .ok u ↔ ∃ created, u.createDate = some created ∧ r = .ofUser u created := by
  constructor
  · unfold toUser
    simp only [bind_eq_ok, idOf_eq_ok_iff, roleOf_eq_ok_iff, statusOf_eq_ok_iff]
    rintro ⟨id, hid, role, hrole, status, hstatus, hu⟩
    cases hu
    refine ⟨r.createDate, rfl, ?_⟩
    unfold ofUser
    rw [← hid, ← hrole, ← hstatus]
  · rintro ⟨created, hcreated, rfl⟩
    exact toUser_ofUser hcreated

/-- The rows that are taken for users are those whose numbers mean something. -/
theorem exists_toUser_iff : (∃ u, r.toUser = .ok u) ↔ r.Fits := by
  unfold toUser Fits
  rw [← exists_idOf_iff, ← Role.exists_code_iff, ← exists_status_iff]
  simp only [bind_eq_ok, roleOf_eq_ok_iff, statusOf_eq_ok_iff]
  constructor
  · rintro ⟨_, id, hid, role, hrole, status, hstatus, _⟩
    exact ⟨⟨id, hid⟩, ⟨role, hrole⟩, status, hstatus⟩
  · rintro ⟨⟨id, hid⟩, ⟨role, hrole⟩, status, hstatus⟩
    exact ⟨_, id, hid, role, hrole, status, hstatus, rfl⟩

/-- A row whose numbers do not all mean something has a flaw. -/
theorem exists_flaw (h : ¬ r.Fits) : ∃ text, r.Flaw text := by
  by_cases hid : IsUserNumber r.id
  · by_cases hrole : IsCode r.role
    · have hstatus : ¬ ∀ code ∈ r.status, IsCode code := fun hstatus => h ⟨hid, hrole, hstatus⟩
      rw [not_forall] at hstatus
      obtain ⟨code, hcode⟩ := hstatus
      rw [Classical.not_imp] at hcode
      exact ⟨_, .status hid hrole hcode.1 hcode.2⟩
    · exact ⟨_, .role hid hrole⟩
  · exact ⟨_, .id hid⟩

/-- A row with a flaw is refused for it. -/
theorem toUser_of_flaw (h : r.Flaw text) : r.toUser = .error (.corrupt text) := by
  unfold toUser
  cases h with
  | id h => rw [idOf_of_not h]; rfl
  | role hid h =>
    obtain ⟨id, hok⟩ := exists_idOf_iff.2 hid
    rw [hok, idOf_eq_ok_iff.1 hok]
    show (roleOf id r.role >>= _) = _
    rw [roleOf_of_not h, badCode_eq]
    rfl
  | status hid hrole hcode h =>
    obtain ⟨id, hok⟩ := exists_idOf_iff.2 hid
    obtain ⟨role, hrole⟩ := Role.exists_code_iff.2 hrole
    rw [hok, idOf_eq_ok_iff.1 hok, hcode]
    show (roleOf id r.role >>= _) = _
    rw [roleOf_eq_ok_iff.2 hrole]
    show (statusOf id (some _) >>= _) = _
    rw [statusOf_of_not h, badCode_eq]
    rfl

/-- A row that is not taken for a user is refused for its flaw. -/
theorem toUser_eq_error_iff {e : StoreError} :
    r.toUser = .error e ↔ ∃ text, r.Flaw text ∧ e = .corrupt text := by
  constructor
  · intro h
    obtain ⟨text, hflaw⟩ := exists_flaw fun hfits => by
      obtain ⟨u, hu⟩ := exists_toUser_iff.2 hfits
      cases h.symm.trans hu
    exact ⟨text, hflaw, Except.error.inj (h.symm.trans (toUser_of_flaw hflaw))⟩
  · rintro ⟨text, hflaw, rfl⟩
    exact toUser_of_flaw hflaw

end UserRow

/-! ## §2. Rows of a listing. -/

/-- The first of some rows that is no user, and what is wrong with it. -/
def FirstFlaw (rows : List UserRow) (text : String) : Prop :=
  ∃ before r after, rows = before ++ r :: after ∧ (∀ r' ∈ before, r'.Fits) ∧ r.Flaw text

section

variable {rows : List UserRow} {text : String}

/-- Rows that do not all fit have a first flaw. -/
theorem exists_firstFlaw (h : ∃ r ∈ rows, ¬ r.Fits) : ∃ text, FirstFlaw rows text := by
  induction rows with
  | nil =>
    obtain ⟨_, hmem, _⟩ := h
    cases hmem
  | cons r more ih =>
    by_cases hr : r.Fits
    · have hmore : ∃ r ∈ more, ¬ r.Fits := by
        obtain ⟨r', hmem, hr'⟩ := h
        rcases List.mem_cons.1 hmem with rfl | hmem
        · exact absurd hr hr'
        · exact ⟨r', hmem, hr'⟩
      obtain ⟨text, before, r', after, rfl, hbefore, hflaw⟩ := ih hmore
      exact ⟨text, r :: before, r', after, rfl, List.forall_mem_cons.2 ⟨hr, hbefore⟩, hflaw⟩
    · obtain ⟨text, hflaw⟩ := UserRow.exists_flaw hr
      exact ⟨text, [], r, more, rfl, List.forall_mem_nil _, hflaw⟩

/-- Rows are refused for their first flaw. -/
theorem toUsers_of_firstFlaw (h : FirstFlaw rows text) : toUsers rows = .error (.corrupt text) := by
  obtain ⟨before, r, after, rfl, hbefore, hflaw⟩ := h
  induction before with
  | nil =>
    show (r.toUser >>= _) = _
    rw [UserRow.toUser_of_flaw hflaw]
    rfl
  | cons r' before ih =>
    obtain ⟨hr', hbefore⟩ := List.forall_mem_cons.1 hbefore
    obtain ⟨u, hu⟩ := UserRow.exists_toUser_iff.2 hr'
    rw [List.cons_append, toUsers, hu, ih hbefore]
    rfl

/-- Rows that all fit are taken for users, one by one. -/
theorem toUsers_eq_ok_iff {us : List User} :
    toUsers rows = .ok us ↔ List.Forall₂ (fun r u => r.toUser = .ok u) rows us := by
  induction rows generalizing us with
  | nil =>
    rw [List.forall₂_nil_left_iff]
    exact ⟨fun h => (Except.ok.inj h).symm, fun h => congrArg _ h.symm⟩
  | cons r more ih =>
    unfold toUsers
    simp only [bind_eq_ok, ih, List.forall₂_cons_left_iff]
    constructor
    · rintro ⟨u, hu, us', hus, h⟩
      cases h
      exact ⟨u, us', hu, hus, rfl⟩
    · rintro ⟨u, us', hu, hus, rfl⟩
      exact ⟨u, hu, us', hus, rfl⟩

end

/-! ## §3. What is bound. -/

/-- A value that is bound: a date as it is, and all else as it is sent. -/
inductive Binding
  | value (p : Parameter)
  | instant (t : Option Instant)

/-- What is sent of a value that is bound. -/
def Binding.sent : Binding → Parameter
  | value p => p
  | instant t => .optional .instant t

/-- The date that is bound. -/
def Binding.instant? : Binding → Option Instant
  | value _ => none
  | instant t => t

/-- The values that are bound for a user, in order. -/
def bindingsOf (u : User) : List Binding :=
  [.value (.int u.id.toNat), .value (.text u.username), .value (.int u.role.code),
   .value (.optional (fun s => .int s.code) u.status), .value (.optional .text u.email),
   .value (.optional .text u.phone), .value (.optional (fun p => .json (Wire.profile.write p)) u.profile),
   .value (.texts u.tags), .value (.json (metadataCodec.write u.metadata)),
   .value (.json (addressesCodec.write u.addresses)), .instant u.createDate, .instant u.lastLogin]

/-- The number of the parameter that an assignment is about, if it is for a column. -/
def Assignment.parameterFor? (c : Column) : Assignment → Option Nat
  | bound d n => if d = c then some n else none
  | boundUnlessNull d n => if d = c then some n else none

/-- The number of the parameter that a statement takes for a column. -/
def Statement.parameterFor? (c : Column) : Statement → Option Nat
  | insert => some (Column.all.idxOf c + 1)
  | update assignments key =>
    if key.column = c then some key.parameter else assignments.findSome? fun a => a.parameterFor? c
  | _ => none

/-- A row of values that are bound. -/
abbrev BoundRow : Type := Column → Binding

/-- The row that a statement makes of some values. -/
def Statement.boundRow (s : Statement) (values : List Binding) : BoundRow := fun c =>
  ((s.parameterFor? c).bind fun n => values[n - 1]?).getD (.value .null)

/-- The values that an operation binds where it stores a user. -/
def bindings? (now : Instant) : Operation → Option (List Binding)
  | .add u => some (bindingsOf (withDefaults u now))
  | .update u => some (bindingsOf u)
  | _ => none

/-- The row that an operation binds where it stores a user. -/
def boundRow? (now : Instant) (op : Operation) : Option BoundRow := do
  let values ← bindings? now op
  let q ← (queryOf now op).toOption
  pure (q.statement.boundRow values)

/-- The row of an operation as it is sent. -/
def BoundRow.sent (b : BoundRow) : Row := fun c => (b c).sent

/-- What comes for a row whose dates are kept as they are bound. -/
def BoundRow.Shows (b : BoundRow) (c : Cells) : Prop :=
  ∃ c', b.sent.Shows c' ∧ c = { c' with
    createDate := (b .createDate).instant?
    lastLogin := (b .lastLogin).instant? }

/-- The values in the columns of a row. -/
def UserRow.bound (r : UserRow) : BoundRow
  | .id => .value (.int r.id)
  | .username => .value (.text r.username)
  | .role => .value (.int r.role)
  | .status => .value (.optional .int r.status)
  | .email => .value (.optional .text r.email)
  | .phone => .value (.optional .text r.phone)
  | .profile => .value (.optional (fun p => .json (Wire.profile.write p)) r.profile)
  | .tags => .value (.texts r.tags)
  | .metadata => .value (.json (metadataCodec.write r.metadata))
  | .addresses => .value (.json (addressesCodec.write r.addresses))
  | .createDate => .instant (some r.createDate)
  | .lastLogin => .instant r.lastLogin

/-- An operation that stores a user just as they are. -/
inductive Stores (u : User) : Operation → Prop
  | update : Stores u (.update u)
  | add (h : u.status.isSome = true) : Stores u (.add u)

/-! ## §4. What comes of it. -/

section

variable {u : User} {created now : Instant} {op : Operation} {r : UserRow} {c : Cells}

/-- What is sent for an operation is what it binds. -/
theorem queryOf_of_bindings? {values : List Binding} (h : bindings? now op = some values) :
    ∃ s, queryOf now op = .ok ⟨s, values.map Binding.sent⟩ := by
  cases op with
  | add u =>
    cases h
    exact ⟨_, rfl⟩
  | update u =>
    cases h
    exact ⟨_, rfl⟩
  | _ => cases h

theorem withDefaults_eq_self (hdate : u.createDate.isSome = true) (hstatus : u.status.isSome = true) :
    withDefaults u now = u := by
  obtain ⟨created, hdate⟩ := Option.isSome_iff_exists.1 hdate
  obtain ⟨status, hstatus⟩ := Option.isSome_iff_exists.1 hstatus
  cases u
  subst hdate hstatus
  rfl

/-- Both statements take the same parameter for a column. -/
theorem parameterFor?_update (c : Column) :
    (Statement.update updateAssignments keyCondition).parameterFor? c
      = Statement.insert.parameterFor? c := by
  cases c <;> rfl

theorem boundRow_update (values : List Binding) :
    (Statement.update updateAssignments keyCondition).boundRow values
      = Statement.insert.boundRow values := by
  unfold Statement.boundRow
  simp only [parameterFor?_update]

theorem optional_code (s : Option AccountStatus) :
    Parameter.optional (fun s => .int s.code) s = .optional .int (s.map AccountStatus.code) := by
  cases s <;> rfl

/-- For each column of a user stands the value of this column. -/
theorem boundRow_insert (hdate : u.createDate = some created) :
    Statement.insert.boundRow (bindingsOf u) = (UserRow.ofUser u created).bound := by
  funext c
  cases c
  case status => exact congrArg Binding.value (optional_code u.status)
  case createDate => exact congrArg Binding.instant hdate
  all_goals rfl

/-- An operation that stores a user just as they are binds their row. -/
theorem boundRow?_of_stores (hdate : u.createDate = some created) (h : Stores u op) :
    boundRow? now op = some (UserRow.ofUser u created).bound := by
  cases h with
  | update => exact congrArg some ((boundRow_update _).trans (boundRow_insert hdate))
  | add hstatus =>
    show some (Statement.insert.boundRow (bindingsOf (withDefaults u now))) = _
    rw [withDefaults_eq_self (Option.isSome_iff_exists.2 ⟨created, hdate⟩) hstatus,
      boundRow_insert hdate]

/-- The row of a user as it is sent is that in the table. -/
theorem sent_bound_ofUser (hdate : u.createDate = some created) :
    (UserRow.ofUser u created).bound.sent = rowOf u := by
  funext c
  cases c
  case status => exact (optional_code u.status).symm
  case createDate => exact congrArg (Parameter.optional .instant) hdate.symm
  all_goals rfl

/-- Something comes for every row. -/
theorem BoundRow.exists_shows (b : BoundRow) : ∃ c, b.Shows c := ⟨_, _, b.sent.shows_cells, rfl⟩

/-- What comes for the row that was bound holds that row. -/
theorem BoundRow.Shows.hold (h : r.bound.Shows c) : c.Hold r := by
  obtain ⟨c', h, rfl⟩ := h
  exact
    { id := h.id
      username := h.username
      role := h.role
      status := h.status.trans ((int?_optional id r.status).trans Option.map_id_apply)
      email := h.email.trans (text?_optional _)
      phone := h.phone.trans (text?_optional _)
      profile := h.profile
      tags := h.tags
      metadata := h.metadata
      addresses := h.addresses
      createDate := rfl
      lastLogin := rfl }

/-- Where dates are of whole microseconds, they are kept as they are bound. -/
theorem BoundRow.shows_of_sent {b : BoundRow}
    (hcreate : (b .createDate).sent.instant? = (b .createDate).instant?)
    (hlogin : (b .lastLogin).sent.instant? = (b .lastLogin).instant?) (h : b.sent.Shows c) :
    b.Shows c := by
  refine ⟨c, h, ?_⟩
  rw [← hcreate, ← hlogin]
  show c = { c with
    createDate := (b.sent .createDate).instant?
    lastLogin := (b.sent .lastLogin).instant? }
  rw [← h.createDate, ← h.lastLogin]

theorem shows_of_isExact (hexact : isExact u = true) (hdate : u.createDate = some created)
    (h : (rowOf u).Shows c) : (UserRow.ofUser u created).bound.Shows c := by
  obtain ⟨_, hcreate, hlogin⟩ := isExact_iff.1 hexact
  rw [hdate] at hcreate
  rw [← sent_bound_ofUser hdate] at h
  exact BoundRow.shows_of_sent (instant?_optional hcreate) (instant?_optional hlogin) h

end

/-- A row is taken for a user if its numbers mean something, and else refused for the first that does not.
A user who has a date of creation is bound as a row, column by column, and what comes for it is taken for
this user; so is what is kept of it, if the dates are of whole microseconds.  A row that is taken for a user
is bound again as the same row.  A listing gives the users of all rows, or tells the flaw of the first row
that is no user. -/
theorem rows_map_exactly :
    (∀ r : UserRow, ((∃ u, r.toUser = .ok u) ↔ r.Fits)
      ∧ ∀ e, r.toUser = .error e ↔ ∃ text, r.Flaw text ∧ e = .corrupt text)
    ∧ (∀ now op values, bindings? now op = some values →
      ∃ s, queryOf now op = .ok ⟨s, values.map Binding.sent⟩)
    ∧ (∀ (u : User) (now : Instant) (op : Operation), u.createDate.isSome = true → Stores u op →
      ∃ row, boundRow? now op = some row ∧ (∃ c, row.Shows c)
        ∧ (∀ c, row.Shows c → ∃ r, c.read = .ok r ∧ r.toUser = .ok u)
        ∧ row.sent = rowOf u
        ∧ (isExact u = true → ∀ c, (rowOf u).Shows c → row.Shows c))
    ∧ (∀ (r : UserRow) (u : User) (now : Instant) (op : Operation), r.toUser = .ok u → Stores u op →
      boundRow? now op = some r.bound ∧ ∀ c, r.bound.Shows c → c.read = .ok r)
    ∧ ∀ cells rows n, readRows cells = .ok rows →
      (∀ f users, interpret (.list f) (.done (.users cells) n) = .ok users
        ↔ List.Forall₂ (fun r u => r.toUser = .ok u) rows users)
      ∧ (∀ role users, interpret (.listByRole role) (.done (.users cells) n) = .ok users
        ↔ List.Forall₂ (fun r u => r.toUser = .ok u) rows users)
      ∧ ((∃ r ∈ rows, ¬ r.Fits) → ∃ text, FirstFlaw rows text
        ∧ (∀ f, interpret (.list f) (.done (.users cells) n) = .error (.corrupt text))
        ∧ ∀ role, interpret (.listByRole role) (.done (.users cells) n) = .error (.corrupt text)) := by
  refine ⟨fun r => ⟨UserRow.exists_toUser_iff, fun e => UserRow.toUser_eq_error_iff⟩,
    fun now op values h => queryOf_of_bindings? h, fun u now op hdate h => ?_,
    fun r u now op hr h => ?_, fun cells rows n hread => ⟨?_, ?_, fun hbad => ?_⟩⟩
  · obtain ⟨created, hdate⟩ := Option.isSome_iff_exists.1 hdate
    exact ⟨_, boundRow?_of_stores hdate h, BoundRow.exists_shows _,
      fun c hc => ⟨_, hc.hold.read, UserRow.toUser_ofUser hdate⟩, sent_bound_ofUser hdate,
      fun hexact c hc => shows_of_isExact hexact hdate hc⟩
  · obtain ⟨created, hdate, rfl⟩ := UserRow.toUser_eq_ok_iff.1 hr
    exact ⟨boundRow?_of_stores hdate h, fun c hc => hc.hold.read⟩
  · intro f users
    rw [interpret_list hread]
    exact toUsers_eq_ok_iff
  · intro role users
    rw [interpret_listByRole hread]
    exact toUsers_eq_ok_iff
  · obtain ⟨text, hflaw⟩ := exists_firstFlaw hbad
    refine ⟨text, hflaw, fun f => ?_, fun role => ?_⟩
    · rw [interpret_list hread]
      exact toUsers_of_firstFlaw hflaw
    · rw [interpret_listByRole hread]
      exact toUsers_of_firstFlaw hflaw

/-- An instant that is not of whole microseconds. -/
def oddInstant : Instant := ⟨1_700_000_000, 1, by decide, by decide, by decide, by decide⟩

/-- A user who was created at such an instant. -/
def oddUser : User where
  id := 7
  username := "ann"
  role := .moderator
  status := some .deleted
  email := none
  phone := some "1"
  profile := none
  tags := ["a", "b"]
  metadata := .ofList [("k", "v")]
  addresses := []
  createDate := some oddInstant
  lastLogin := none

/-- The row of this user, as it is bound. -/
def oddRow : UserRow := .ofUser oddUser oddInstant

/-- This row, one with two flaws, and one that is worse still. -/
def flawedRows : List UserRow :=
  [oddRow, { oddRow with role := 4, status := some 9 }, { oddRow with id := -1 }]

/-- The oddly dated user is bound as a row that is read as this user, though the date is cut when it is sent.
A row with two flaws is refused for the first, also where a worse row comes after it. -/
theorem rows_map_exactly_oddly_dated :
    isExact oddUser = false
    ∧ (∃ row, boundRow? oddInstant (.add oddUser) = some row ∧ (∃ c, row.Shows c)
      ∧ ∀ c, row.Shows c → ∃ r, c.read = .ok r ∧ r.toUser = .ok oddUser)
    ∧ (∀ now, boundRow? now (.update oddUser) = some oddRow.bound)
    ∧ (∃ values, bindings? oddInstant (.update oddUser) = some values
      ∧ ∃ s, queryOf oddInstant (.update oddUser) = .ok ⟨s, values.map Binding.sent⟩)
    ∧ ∃ cells, readRows cells = .ok flawedRows
      ∧ ∀ f, interpret (.list f) (.done (.users cells) 0) = .error (.corrupt "user 7: role code 4") := by
  obtain ⟨_, hsent, husers, hrows, hlistings⟩ := rows_map_exactly
  have hodd : oddRow.toUser = .ok oddUser := UserRow.toUser_ofUser rfl
  refine ⟨by decide, ?_, fun now => (hrows oddRow oddUser now _ hodd .update).1,
    ⟨_, rfl, hsent _ _ _ rfl⟩, ?_⟩
  · obtain ⟨row, hrow, hshows, hback, _⟩ := husers oddUser oddInstant (.add oddUser) rfl (.add rfl)
    exact ⟨row, hrow, hshows, hback⟩
  · have hread : ∀ r : UserRow, ∃ c : Cells, c.read = .ok r := by
      intro r
      obtain ⟨c, hc⟩ := r.bound.exists_shows
      exact ⟨c, hc.hold.read⟩
    obtain ⟨c₁, h₁⟩ := hread oddRow
    obtain ⟨c₂, h₂⟩ := hread { oddRow with role := 4, status := some 9 }
    obtain ⟨c₃, h₃⟩ := hread { oddRow with id := -1 }
    have hcells : readRows [c₁, c₂, c₃] = .ok flawedRows := by
      simp only [readRows, h₁, h₂, h₃, bind, Except.bind, pure, Except.pure]
      rfl
    have hbad : ¬ IsCode 4 := by decide
    obtain ⟨text, hflaw, hlist, _⟩ := (hlistings _ _ 0 hcells).2.2
      ⟨_, List.mem_cons_of_mem _ List.mem_cons_self, fun h => hbad h.2.1⟩
    have hfits : oddRow.Fits := UserRow.exists_toUser_iff.1 ⟨oddUser, hodd⟩
    have hfirst : FirstFlaw flawedRows ("user " ++ digitsOf 7 ++ ": role code " ++ digitsOf 4) :=
      ⟨[oddRow], _, _, rfl, List.forall_mem_singleton.2 hfits, .role hfits.1 hbad⟩
    have htext : text = "user " ++ digitsOf 7 ++ ": role code " ++ digitsOf 4 :=
      StoreError.corrupt.inj
        (Except.error.inj ((toUsers_of_firstFlaw hflaw).symm.trans (toUsers_of_firstFlaw hfirst)))
    have hwritten : "user " ++ digitsOf 7 ++ ": role code " ++ digitsOf 4 = "user 7: role code 4" := by
      decide +kernel
    rw [← hwritten, ← htext]
    exact ⟨_, hcells, hlist⟩

end UserDirectory.Store.Relational
