import UserDirectory.Access.Claims
import UserDirectory.Json.Codec
import UserDirectory.Json.Reader
import UserDirectory.Time.InstantText
import UserDirectory.User.Payload
/-!
# The written form of users and payloads

One codec for each type that is sent.  A record names its fields in the order of their writing.
-/

namespace UserDirectory.Wire

open UserDirectory.Json
open UserDirectory.Time (Duration Instant)
open UserDirectory.Access (Claims RoleNames)

/-! ## §1. Times. -/

/-- Instants, as text. -/
def instant : Codec Instant := .text (·.text) fun s => Instant.read s.toList

/-- A length of time from seconds and any number of nanoseconds below 2^32. -/
def durationOf? (seconds nanos : Nat) : Option Duration :=
  Duration.ofNanos? (seconds * 1_000_000_000 + nanos)

/-- Lengths of time; no other member may stand beside the two. -/
def duration : Codec Duration :=
  .record
    (.cons (.required "secs" (.below UInt64.size)) <| .cons (.required "nanos" (.below UInt32.size)) .nil)
    true
    (fun d => (d.seconds, d.nanos, ()))
    fun (s, n, ()) => durationOf? s n

/-! ## §2. Users. -/

/-- Roles, by name. -/
def role : Codec Role := .enumeration Role.name Role.all

/-- States of an account, by name. -/
def status : Codec AccountStatus := .enumeration AccountStatus.name AccountStatus.all

/-- Kinds of address, by name. -/
def addressKind : Codec AddressKind := .enumeration AddressKind.name AddressKind.all

/-- Postal addresses. -/
def address : Codec Address :=
  .record
    (.cons (.required "type" addressKind) <| .cons (.required "street" .string) <|
      .cons (.required "city" .string) <| .cons (.required "state" .string) <|
      .cons (.required "postal_code" .string) <| .cons (.required "country" .string) <|
      .cons (.required "is_primary" .bool) .nil)
    false
    (fun a => (a.kind, a.street, a.city, a.state, a.postalCode, a.country, a.isPrimary, ()))
    fun (k, s, c, t, p, n, i, ()) => some ⟨k, s, c, t, p, n, i⟩

/-- Profiles. -/
def profile : Codec Profile :=
  .record
    (.cons (.required "display_name" .string) <| .cons (.required "bio" .string) <|
      .cons (.required "avatar_url" .string) <| .cons (.optional "date_of_birth" instant) <|
      .cons (.required "preferences" (.map .int32)) .nil)
    false
    (fun p => (p.displayName, p.bio, p.avatarUrl, p.dateOfBirth, p.preferences, ()))
    fun (d, b, a, t, p, ()) => some ⟨d, b, a, t, p⟩

/-- Users. -/
def user : Codec User :=
  .record
    (.cons (.required "id" .uint32) <| .cons (.required "username" .string) <|
      .cons (.required "role" role) <| .cons (.optional "status" status) <|
      .cons (.optional "email" .string) <| .cons (.optional "phone" .string) <|
      .cons (.optional "profile" profile) <| .cons (.required "tags" (.list .string)) <|
      .cons (.required "metadata" (.map .string)) <|
      .cons (.required "addresses" (.list address)) <|
      .cons (.optional "create_date" instant) <| .cons (.optional "last_login" instant) .nil)
    false
    (fun u => (u.id, u.username, u.role, u.status, u.email, u.phone, u.profile, u.tags, u.metadata,
      u.addresses, u.createDate, u.lastLogin, ()))
    fun (i, n, r, s, e, p, f, t, m, a, c, l, ()) => some ⟨i, n, r, s, e, p, f, t, m, a, c, l⟩

/-! ## §3. Requests. -/

/-- Requests for one user. -/
def getUserRequest : Codec GetUserRequest :=
  .record (.cons (.required "id" .uint32) .nil) false (fun r => (r.id, ()))
    fun (i, ()) => some ⟨i⟩

/-- Requests to remove one user. -/
def deleteUserRequest : Codec DeleteUserRequest :=
  .record (.cons (.required "id" .uint32) .nil) false (fun r => (r.id, ()))
    fun (i, ()) => some ⟨i⟩

/-- Requests to change one user. -/
def updateUserRequest : Codec UpdateUserRequest :=
  .record
    (.cons (.optional "user" user) <| .cons (.defaulted "update_mask" (.list .string) []) .nil)
    false
    (fun r => (r.user, r.updateMask, ()))
    fun (u, m, ()) => some ⟨u, m⟩

/-- Requests for the users that satisfy some conditions. -/
def listUsersRequest : Codec ListUsersRequest :=
  .record
    (.cons (.optional "created_since" instant) <| .cons (.optional "older_than" duration) <|
      .cons (.optional "status" status) <| .cons (.defaulted "page_size" .uint32 0) <|
      .cons (.optional "page_token" .string) .nil)
    false
    (fun r => (r.createdSince, r.olderThan, r.status, r.pageSize, r.pageToken, ()))
    fun (c, o, s, n, t, ()) => some ⟨c, o, s, n, t⟩

/-- Requests for the users with a role. -/
def userRoleRequest : Codec UserRoleRequest :=
  .record (.cons (.required "role" role) .nil) false (fun r => (r.role, ()))
    fun (r, ()) => some ⟨r⟩

/-- Kinds of activity, by name. -/
def activityKind : Codec ActivityKind := .enumeration ActivityKind.name ActivityKind.all

/-- Reports of activities. -/
def userActivity : Codec UserActivity :=
  .record
    (.cons (.required "user_id" .uint32) <| .cons (.required "activity_type" activityKind) <|
      .cons (.optional "timestamp" instant) <|
      .cons (.defaulted "details" (.map .string) .empty) .nil)
    false
    (fun a => (a.userId, a.kind, a.timestamp, a.details, ()))
    fun (u, k, t, d, ()) => some ⟨u, k, t, d⟩

/-! ## §4. Responses. -/

/-- Sums of a batch. -/
def batchAddUsersResponse : Codec BatchAddUsersResponse :=
  .record
    (.cons (.required "total_received" .uint32) <| .cons (.required "total_added" .uint32) <|
      .cons (.required "total_failed" .uint32) <|
      .cons (.required "errors" (.list .string)) <|
      .cons (.required "processed_at" instant) .nil)
    false
    (fun r => (r.totalReceived, r.totalAdded, r.totalFailed, r.errors, r.processedAt, ()))
    fun (r, a, f, e, t, ()) => some ⟨r, a, f, e, t⟩

/-- Answers to activities. -/
def userActivityResponse : Codec UserActivityResponse :=
  .record
    (.cons (.required "user_id" .uint32) <| .cons (.required "acknowledged" .bool) <|
      .cons (.required "message" .string) <| .cons (.required "processed_at" instant) .nil)
    false
    (fun r => (r.userId, r.acknowledged, r.message, r.processedAt, ()))
    fun (u, a, m, t, ()) => some ⟨u, a, m, t⟩

/-- Outcomes of bringing a user in line, by name. -/
def syncStatus : Codec SyncStatus := .enumeration SyncStatus.name SyncStatus.all

/-- Answers to users who were to be brought in line. -/
def syncUserResponse : Codec SyncUserResponse :=
  .record
    (.cons (.required "user_id" .uint32) <| .cons (.required "status" syncStatus) <|
      .cons (.optional "error_message" .string) <|
      .cons (.required "updated_fields" (.list .string)) .nil)
    false
    (fun r => (r.userId, r.status, r.errorMessage, r.updatedFields, ()))
    fun (u, s, e, f, ()) => some ⟨u, s, e, f⟩

/-! ## §5. Claims. -/

/-- Sets of role names, as lists. -/
def roleNames : Codec RoleNames where
  write r := (Codec.list .string).write r.keys
  read n := ((Codec.list .string).read n).map RoleNames.ofNames

/-- Claims. -/
def claims : Codec Claims :=
  .record
    (.cons (.required "user_id" .string) <| .cons (.required "username" .string) <|
      .cons (.defaulted "email" .string "") <| .cons (.defaulted "roles" roleNames .empty) <|
      .cons (.required "iss" .string) <| .cons (.required "sub" .string) <|
      .cons (.required "iat" .int64) <| .cons (.required "nbf" .int64) <|
      .cons (.required "exp" .int64) .nil)
    false
    (fun c => (c.userId, c.username, c.email, c.roles, c.issuer, c.subject, c.issuedAt,
      c.notBefore, c.expiresAt, ()))
    fun (u, n, e, r, i, s, t, b, x, ()) => some ⟨u, n, e, r, i, s, t, b, x⟩

/-! ## §6. Whole texts. -/

/-- Reads a value from the whole of a document. -/
def decodeDocument {α : Type} (c : Codec α) (d : Document) : Except Fault α := do
  let a ← c.read d.root
  stopAt d.rest
  pure a

/-- Reads a value from the whole of a text. -/
def decode {α : Type} (c : Codec α) (s : String) : Except Fault α :=
  decodeDocument c (.ofText s)

/-- The text of a value. -/
def encode {α : Type} (c : Codec α) (a : α) : String := (c.write a).text

end UserDirectory.Wire
