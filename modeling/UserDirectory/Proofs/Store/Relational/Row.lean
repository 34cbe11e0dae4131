import UserDirectory.Proofs.Store.Relational.Database
import UserDirectory.Proofs.Wire.Payload
/-!
# Users and their rows

A user is stored in a row and comes back as the same user, if the instants that are stored by number are
of whole microseconds.

Main statements:
  * `instantOf?_microsSince2000` and `lt_iff_microsSince2000_lt`: such instants are not changed, and are
    ordered as their numbers are;
  * `toUser_of_shows`: what comes for the row of a user is taken for that user.
-/

namespace UserDirectory.Time.Instant

/-- Whether an instant is a number of whole microseconds from 1970, and in no leap second. -/
def isWholeMicros (t : Instant) : Bool := t.nanos < 1_000_000_000 && t.nanos % 1000 = 0

variable {s t : Instant}

theorem isWholeMicros_iff : t.isWholeMicros = true ↔ t.nanos < 1_000_000_000 ∧ t.nanos % 1000 = 0 := by
  unfold isWholeMicros
  rw [Bool.and_eq_true, decide_eq_true_eq, decide_eq_true_eq]

/-- The number of an instant of whole microseconds loses nothing. -/
theorem microsSince2000_mul (h : t.isWholeMicros = true) :
    t.microsSince2000 * 1000 = t.totalNanos - 946684800 * 1_000_000_000 := by
  obtain ⟨_, hmod⟩ := isWholeMicros_iff.1 h
  refine Int.tdiv_mul_cancel ?_
  unfold totalNanos
  omega

/-- Instants of whole microseconds are ordered as their numbers are. -/
theorem lt_iff_microsSince2000_lt (hs : s.isWholeMicros = true) (ht : t.isWholeMicros = true) :
    s < t ↔ s.microsSince2000 < t.microsSince2000 := by
  rw [lt_iff_totalNanos_lt s t (isWholeMicros_iff.1 hs).1 (isWholeMicros_iff.1 ht).1]
  have hs' := microsSince2000_mul hs
  have ht' := microsSince2000_mul ht
  omega

theorem le_iff_microsSince2000_le (hs : s.isWholeMicros = true) (ht : t.isWholeMicros = true) :
    s ≤ t ↔ s.microsSince2000 ≤ t.microsSince2000 := by
  show ¬ t < s ↔ _
  rw [lt_iff_microsSince2000_lt ht hs]
  omega

end UserDirectory.Time.Instant

namespace UserDirectory.Store.Relational

open UserDirectory.Json (Codec)
open UserDirectory.Time (Instant)

/-- An instant of whole microseconds comes back as it is. -/
theorem instantOf?_microsSince2000 {t : Instant} (h : t.isWholeMicros = true) :
    instantOf? t.microsSince2000 = some t := by
  obtain ⟨hlt, _⟩ := Instant.isWholeMicros_iff.1 h
  have hmul := Instant.microsSince2000_mul h
  have hseconds : (t.microsSince2000 * 1000 + 946684800 * 1_000_000_000) / 1_000_000_000
      = t.seconds := by
    unfold Instant.totalNanos at hmul
    omega
  have hnanos : ((t.microsSince2000 * 1000 + 946684800 * 1_000_000_000) % 1_000_000_000).toNat
      = t.nanos := by
    unfold Instant.totalNanos at hmul
    omega
  unfold instantOf?
  simp only [hseconds, hnanos]
  exact t.of?_self

/-! ## §1. The row of a user. -/

/-- The row of a user. -/
def rowOf (u : User) : Row := Query.newRow ⟨.insert, parametersOf u⟩

section

variable (u : User)

@[simp] theorem rowOf_id : rowOf u .id = .int u.id.toNat := rfl

@[simp] theorem rowOf_username : rowOf u .username = .text u.username := rfl

@[simp] theorem rowOf_role : rowOf u .role = .int u.role.code := rfl

@[simp] theorem rowOf_status : rowOf u .status = .optional (fun s => .int s.code) u.status := rfl

@[simp] theorem rowOf_email : rowOf u .email = .optional .text u.email := rfl

@[simp] theorem rowOf_phone : rowOf u .phone = .optional .text u.phone := rfl

@[simp] theorem rowOf_profile :
    rowOf u .profile = .optional (fun p => .json (Wire.profile.write p)) u.profile := rfl

@[simp] theorem rowOf_tags : rowOf u .tags = .texts u.tags := rfl

@[simp] theorem rowOf_metadata : rowOf u .metadata = .json (metadataCodec.write u.metadata) := rfl

@[simp] theorem rowOf_addresses : rowOf u .addresses = .json (addressesCodec.write u.addresses) := rfl

@[simp] theorem rowOf_createDate : rowOf u .createDate = .optional .instant u.createDate := rfl

@[simp] theorem rowOf_lastLogin : rowOf u .lastLogin = .optional .instant u.lastLogin := rfl

end

/-! ## §2. What comes back. -/

theorem lawful_metadataCodec : metadataCodec.Lawful := Codec.lawful_string.map

theorem lawful_addressesCodec : addressesCodec.Lawful := Wire.lawful_address.list

/-- A nested value comes back as it is. -/
theorem nested_of_comesAs {α : Type} {codec : Codec α} (hlawful : codec.Lawful) {a : α}
    {cell : Option String} (h : (Parameter.json (codec.write a)).ComesAs cell) (c : Column) :
    ∃ text, cell = some text ∧ nested c codec text = .ok a := by
  obtain ⟨w, g, cs, g₁, hw, hg, hcs, hg₁, rfl⟩ := h
  refine ⟨_, rfl, ?_⟩
  unfold nested
  rw [Wire.decode_of_tells (hlawful a) hw hg hcs hg₁]

/-- A nested value that may be missing comes back as it is. -/
theorem nestedOptional_of_comesAs {α : Type} {codec : Codec α} (hlawful : codec.Lawful)
    {a : Option α} {cell : Option String}
    (h : (Parameter.optional (fun a => .json (codec.write a)) a).ComesAs cell) (c : Column) :
    nestedOptional c codec cell = .ok a := by
  cases a with
  | none =>
    change cell = none at h
    rw [h]
    rfl
  | some a =>
    obtain ⟨text, rfl, hread⟩ := nested_of_comesAs hlawful h c
    show (nested c codec text).map some = _
    rw [hread]
    rfl

/-- Texts come back as they are. -/
theorem allTexts_map_some (c : Column) (l : List String) : allTexts c (l.map some) = .ok l := by
  induction l with
  | nil => rfl
  | cons s more ih =>
    show (do
      let s ← needed c (some s)
      let rest ← allTexts c (more.map some)
      pure (s :: rest)) = _
    rw [ih]
    rfl

/-- A value that may be missing comes back as it is. -/
theorem int?_optional {α : Type} (f : α → Int) (a : Option α) :
    (Parameter.optional (fun a => .int (f a)) a).int? = a.map f := by
  cases a <;> rfl

theorem text?_optional (s : Option String) : (Parameter.optional .text s).text? = s := by
  cases s <;> rfl

theorem instant?_optional {t : Option Instant} (h : t.all Instant.isWholeMicros = true) :
    (Parameter.optional .instant t).instant? = t := by
  cases t with
  | none => rfl
  | some t => exact instantOf?_microsSince2000 h

theorem statusOf_code (id : UInt32) (s : Option AccountStatus) :
    statusOf id (s.map AccountStatus.code) = .ok s := by
  cases s with
  | none => rfl
  | some s =>
    unfold statusOf
    simp only [Option.map_some]
    rw [AccountStatus.ofCode?_code]

/-- Whether a user can be stored in a row without loss: the instants that are stored by number are of
whole microseconds, and the date of creation is there. -/
def isExact (u : User) : Bool :=
  u.createDate.isSome && u.createDate.all Instant.isWholeMicros
    && u.lastLogin.all Instant.isWholeMicros

theorem isExact_iff {u : User} :
    isExact u = true ↔ u.createDate.isSome = true ∧ u.createDate.all Instant.isWholeMicros = true
      ∧ u.lastLogin.all Instant.isWholeMicros = true := by
  unfold isExact
  rw [Bool.and_eq_true, Bool.and_eq_true, and_assoc]

/-- What comes for a row holds what stands in it: nested values as any of their texts, and its dates. -/
structure Cells.Hold (c : Cells) (r : UserRow) : Prop where
  id : c.id = some r.id
  username : c.username = some r.username
  role : c.role = some r.role
  status : c.status = r.status
  email : c.email = r.email
  phone : c.phone = r.phone
  profile : (Parameter.optional (fun p => .json (Wire.profile.write p)) r.profile).ComesAs c.profile
  tags : c.tags = some (r.tags.map some)
  metadata : (Parameter.json (metadataCodec.write r.metadata)).ComesAs c.metadata
  addresses : (Parameter.json (addressesCodec.write r.addresses)).ComesAs c.addresses
  createDate : c.createDate = some r.createDate
  lastLogin : c.lastLogin = r.lastLogin

/-- What holds a row is read as this row. -/
theorem Cells.Hold.read {c : Cells} {r : UserRow} (h : c.Hold r) : c.read = .ok r := by
  have hprofile := nestedOptional_of_comesAs Wire.lawful_profile h.profile .profile
  obtain ⟨metadata, hmetadata, hmetadata'⟩ :=
    nested_of_comesAs lawful_metadataCodec h.metadata .metadata
  obtain ⟨addresses, haddresses, haddresses'⟩ :=
    nested_of_comesAs lawful_addressesCodec h.addresses .addresses
  unfold Cells.read
  rw [h.id, h.username, h.role, h.status, h.email, h.phone, h.tags, h.createDate, h.lastLogin,
    hmetadata, haddresses, hprofile]
  simp only [needed, bind, Except.bind, allTexts_map_some, hmetadata', haddresses']
  rfl

/-- The row of a user who was created at an instant. -/
def UserRow.ofUser (u : User) (created : Instant) : UserRow where
  id := u.id.toNat
  username := u.username
  role := u.role.code
  status := u.status.map AccountStatus.code
  email := u.email
  phone := u.phone
  profile := u.profile
  tags := u.tags
  metadata := u.metadata
  addresses := u.addresses
  createDate := created
  lastLogin := u.lastLogin

/-- The row of a user is taken for that user. -/
theorem UserRow.toUser_ofUser {u : User} {created : Instant} (h : u.createDate = some created) :
    (UserRow.ofUser u created).toUser = .ok u := by
  unfold UserRow.toUser UserRow.ofUser roleOf
  simp only
  rw [idOf_eq_ok_iff.2 rfl]
  simp only [bind, Except.bind, Role.ofCode?_code, statusOf_code]
  show Except.ok { u with createDate := some created } = _
  rw [← h]

/-- What comes for the row of a user is taken for that user. -/
theorem toUser_of_shows {u : User} {c : Cells} (hu : isExact u = true)
    (h : (rowOf u).Shows c) : ∃ r, c.read = .ok r ∧ r.toUser = .ok u := by
  obtain ⟨hsome, hcreate, hlogin⟩ := isExact_iff.1 hu
  obtain ⟨created, hcreated⟩ := Option.isSome_iff_exists.1 hsome
  have hhold : c.Hold (.ofUser u created) :=
    { id := h.id
      username := h.username
      role := h.role
      status := h.status.trans (int?_optional _ _)
      email := h.email.trans (text?_optional _)
      phone := h.phone.trans (text?_optional _)
      profile := h.profile
      tags := h.tags
      metadata := h.metadata
      addresses := h.addresses
      createDate := h.createDate.trans ((instant?_optional hcreate).trans hcreated)
      lastLogin := h.lastLogin.trans (instant?_optional hlogin) }
  exact ⟨_, hhold.read, UserRow.toUser_ofUser hcreated⟩

/-! ## §3. Listings. -/

section

variable {cells : List Cells} {rows : List UserRow}

/-- All the rows that come are taken for the users that were asked for. -/
theorem interpret_list (h : readRows cells = .ok rows) (f : ListFilter) (n : Nat) :
    interpret (.list f) (.done (.users cells) n) = toUsers rows := by
  have hfetch : fetch (.list f) (.done (.users cells) n) = .ok rows := h
  unfold interpret
  rw [hfetch]
  rfl

theorem interpret_listByRole (h : readRows cells = .ok rows) (role : Role) (n : Nat) :
    interpret (.listByRole role) (.done (.users cells) n) = toUsers rows := by
  have hfetch : fetch (.listByRole role) (.done (.users cells) n) = .ok rows := h
  unfold interpret
  rw [hfetch]
  rfl

end

end UserDirectory.Store.Relational
