import UserDirectory.Proofs.Json.Loosening
import UserDirectory.Proofs.Wire.Claims
/-!
# Payloads go there and back

Every value of a payload is decoded from its text.  It is decoded as well from the text of another
sender: the members of its objects in any order, with blanks between them, unknown members among them
whose values are whatever the format has, and without those members that are null.  Lengths of time and
maps are plain, for which only the order is free.

Main statement: `payloads_round_trip`.
-/

namespace UserDirectory.Wire

open UserDirectory.Access (Claims)
open UserDirectory.Json

/-! ## §1. The shapes. -/

namespace Shapes

/-- Postal addresses. -/
def address : Shape :=
  .record [("type", .plain), ("street", .plain), ("city", .plain), ("state", .plain),
    ("postal_code", .plain), ("country", .plain), ("is_primary", .plain)]

/-- Profiles. -/
def profile : Shape :=
  .record [("display_name", .plain), ("bio", .plain), ("avatar_url", .plain),
    ("date_of_birth", .option .plain), ("preferences", .plain)]

/-- Users. -/
def user : Shape :=
  .record [("id", .plain), ("username", .plain), ("role", .plain), ("status", .option .plain),
    ("email", .option .plain), ("phone", .option .plain), ("profile", .option profile),
    ("tags", .plain), ("metadata", .plain), ("addresses", .list address),
    ("create_date", .option .plain), ("last_login", .option .plain)]

/-- Requests for one user, or to remove one. -/
def byId : Shape := .record [("id", .plain)]

/-- Requests to change one user. -/
def updateUserRequest : Shape := .record [("user", .option user), ("update_mask", .plain)]

/-- Requests for the users that satisfy some conditions. -/
def listUsersRequest : Shape :=
  .record [("created_since", .option .plain), ("older_than", .option .plain),
    ("status", .option .plain), ("page_size", .plain), ("page_token", .option .plain)]

/-- Requests for the users with a role. -/
def userRoleRequest : Shape := .record [("role", .plain)]

/-- Reports of activities. -/
def userActivity : Shape :=
  .record [("user_id", .plain), ("activity_type", .plain), ("timestamp", .option .plain),
    ("details", .plain)]

/-- Answers to activities. -/
def userActivityResponse : Shape :=
  .record [("user_id", .plain), ("acknowledged", .plain), ("message", .plain),
    ("processed_at", .plain)]

/-- Sums of a batch. -/
def batchAddUsersResponse : Shape :=
  .record [("total_received", .plain), ("total_added", .plain), ("total_failed", .plain),
    ("errors", .plain), ("processed_at", .plain)]

/-- Answers to users who were to be brought in line. -/
def syncUserResponse : Shape :=
  .record [("user_id", .plain), ("status", .plain), ("error_message", .option .plain),
    ("updated_fields", .plain)]

/-- Claims. -/
def claims : Shape :=
  .record [("user_id", .plain), ("username", .plain), ("email", .plain), ("roles", .plain),
    ("iss", .plain), ("sub", .plain), ("iat", .plain), ("nbf", .plain), ("exp", .plain)]

end Shapes

/-! ## §2. Users. -/

theorem lenient_address : address.Lenient Shapes.address := by
  refine .record (by decide) ?_ fun a => rfl
  exact .cons (.plain lawful_addressKind) <| .cons (.plain Codec.lawful_string) <|
    .cons (.plain Codec.lawful_string) <| .cons (.plain Codec.lawful_string) <|
    .cons (.plain Codec.lawful_string) <| .cons (.plain Codec.lawful_string) <|
    .cons (.plain Codec.lawful_bool) .nil

theorem lenient_profile : profile.Lenient Shapes.profile := by
  refine .record (by decide) ?_ fun p => rfl
  exact .cons (.plain Codec.lawful_string) <| .cons (.plain Codec.lawful_string) <|
    .cons (.plain Codec.lawful_string) <|
    .cons (.option lawful_instant.lenient fun _ => Value.noConfusion) <|
    .cons (.plain Codec.lawful_int32.map) .nil

theorem lenient_user : user.Lenient Shapes.user := by
  have hinstant (name : String) : (Field.optional name instant).Lenient name (.option .plain) :=
    .option lawful_instant.lenient fun _ => Value.noConfusion
  have hstring (name : String) : (Field.optional name Codec.string).Lenient name (.option .plain) :=
    .option Codec.lawful_string.lenient fun _ => Value.noConfusion
  refine .record (by decide) ?_ fun u => rfl
  exact .cons (.plain Codec.lawful_uint32) <| .cons (.plain Codec.lawful_string) <|
    .cons (.plain lawful_role) <|
    .cons (.option lawful_status.lenient fun _ => Value.noConfusion) <|
    .cons (hstring _) <| .cons (hstring _) <|
    .cons (.option lenient_profile fun _ => Value.noConfusion) <|
    .cons (.plain Codec.lawful_string.list) <| .cons (.plain Codec.lawful_string.map) <|
    .cons (.of_codec lenient_address.list rfl) <| .cons (hinstant _) <| .cons (hinstant _) .nil

/-! ## §3. Requests. -/

theorem lenient_getUserRequest : getUserRequest.Lenient Shapes.byId :=
  .record (by decide) (.cons (.plain Codec.lawful_uint32) .nil) fun r => rfl

theorem lenient_deleteUserRequest : deleteUserRequest.Lenient Shapes.byId :=
  .record (by decide) (.cons (.plain Codec.lawful_uint32) .nil) fun r => rfl

theorem lenient_updateUserRequest : updateUserRequest.Lenient Shapes.updateUserRequest := by
  refine .record (by decide) ?_ fun r => rfl
  exact .cons (.option lenient_user fun _ => Value.noConfusion) <|
    .cons (.plain Codec.lawful_string.list) .nil

theorem lenient_listUsersRequest : listUsersRequest.Lenient Shapes.listUsersRequest := by
  refine .record (by decide) ?_ fun r => rfl
  exact .cons (.option lawful_instant.lenient fun _ => Value.noConfusion) <|
    .cons (.option lawful_duration.lenient fun _ => Value.noConfusion) <|
    .cons (.option lawful_status.lenient fun _ => Value.noConfusion) <|
    .cons (.plain Codec.lawful_uint32) <|
    .cons (.option Codec.lawful_string.lenient fun _ => Value.noConfusion) .nil

theorem lenient_userRoleRequest : userRoleRequest.Lenient Shapes.userRoleRequest :=
  .record (by decide) (.cons (.plain lawful_role) .nil) fun r => rfl

theorem lenient_userActivity : userActivity.Lenient Shapes.userActivity := by
  refine .record (by decide) ?_ fun a => rfl
  exact .cons (.plain Codec.lawful_uint32) <| .cons (.plain lawful_activityKind) <|
    .cons (.option lawful_instant.lenient fun _ => Value.noConfusion) <|
    .cons (.plain Codec.lawful_string.map) .nil

/-! ## §4. Responses and claims. -/

theorem lenient_userActivityResponse : userActivityResponse.Lenient Shapes.userActivityResponse := by
  refine .record (by decide) ?_ fun r => rfl
  exact .cons (.plain Codec.lawful_uint32) <| .cons (.plain Codec.lawful_bool) <|
    .cons (.plain Codec.lawful_string) <| .cons (.plain lawful_instant) .nil

theorem lenient_batchAddUsersResponse :
    batchAddUsersResponse.Lenient Shapes.batchAddUsersResponse := by
  refine .record (by decide) ?_ fun r => rfl
  exact .cons (.plain Codec.lawful_uint32) <| .cons (.plain Codec.lawful_uint32) <|
    .cons (.plain Codec.lawful_uint32) <| .cons (.plain Codec.lawful_string.list) <|
    .cons (.plain lawful_instant) .nil

theorem lenient_syncUserResponse : syncUserResponse.Lenient Shapes.syncUserResponse := by
  refine .record (by decide) ?_ fun r => rfl
  exact .cons (.plain Codec.lawful_uint32) <| .cons (.plain lawful_syncStatus) <|
    .cons (.option Codec.lawful_string.lenient fun _ => Value.noConfusion) <|
    .cons (.plain Codec.lawful_string.list) .nil

theorem lenient_claims : claims.Lenient Shapes.claims := by
  refine .record (by decide) ?_ fun c => rfl
  exact .cons (.plain Codec.lawful_string) <| .cons (.plain Codec.lawful_string) <|
    .cons (.plain Codec.lawful_string) <| .cons (.plain lawful_roleNames) <|
    .cons (.plain Codec.lawful_string) <| .cons (.plain Codec.lawful_string) <|
    .cons (.plain lawful_int64) <| .cons (.plain lawful_int64) <| .cons (.plain lawful_int64) .nil

/-! ## §5. Every payload. -/

/-- What is sent: users and their parts, requests, responses and claims. -/
inductive Payload
  | address
  | profile
  | user
  | getUserRequest
  | deleteUserRequest
  | updateUserRequest
  | listUsersRequest
  | userRoleRequest
  | userActivity
  | userActivityResponse
  | batchAddUsersResponse
  | syncUserResponse
  | claims

namespace Payload

/-- The values of a payload. -/
def Carrier : Payload → Type
  | address => Address
  | profile => Profile
  | user => User
  | getUserRequest => GetUserRequest
  | deleteUserRequest => DeleteUserRequest
  | updateUserRequest => UpdateUserRequest
  | listUsersRequest => ListUsersRequest
  | userRoleRequest => UserRoleRequest
  | userActivity => UserActivity
  | userActivityResponse => UserActivityResponse
  | batchAddUsersResponse => BatchAddUsersResponse
  | syncUserResponse => SyncUserResponse
  | claims => Claims

/-- How they are written and read. -/
def codec : (p : Payload) → Codec p.Carrier
  | address => Wire.address
  | profile => Wire.profile
  | user => Wire.user
  | getUserRequest => Wire.getUserRequest
  | deleteUserRequest => Wire.deleteUserRequest
  | updateUserRequest => Wire.updateUserRequest
  | listUsersRequest => Wire.listUsersRequest
  | userRoleRequest => Wire.userRoleRequest
  | userActivity => Wire.userActivity
  | userActivityResponse => Wire.userActivityResponse
  | batchAddUsersResponse => Wire.batchAddUsersResponse
  | syncUserResponse => Wire.syncUserResponse
  | claims => Wire.claims

/-- How they are laid out. -/
def shape : Payload → Shape
  | address => Shapes.address
  | profile => Shapes.profile
  | user => Shapes.user
  | getUserRequest => Shapes.byId
  | deleteUserRequest => Shapes.byId
  | updateUserRequest => Shapes.updateUserRequest
  | listUsersRequest => Shapes.listUsersRequest
  | userRoleRequest => Shapes.userRoleRequest
  | userActivity => Shapes.userActivity
  | userActivityResponse => Shapes.userActivityResponse
  | batchAddUsersResponse => Shapes.batchAddUsersResponse
  | syncUserResponse => Shapes.syncUserResponse
  | claims => Shapes.claims

/-- Every payload is read from its looser forms. -/
theorem lenient : (p : Payload) → p.codec.Lenient p.shape
  | address => lenient_address
  | profile => lenient_profile
  | user => lenient_user
  | getUserRequest => lenient_getUserRequest
  | deleteUserRequest => lenient_deleteUserRequest
  | updateUserRequest => lenient_updateUserRequest
  | listUsersRequest => lenient_listUsersRequest
  | userRoleRequest => lenient_userRoleRequest
  | userActivity => lenient_userActivity
  | userActivityResponse => lenient_userActivityResponse
  | batchAddUsersResponse => lenient_batchAddUsersResponse
  | syncUserResponse => lenient_syncUserResponse
  | claims => lenient_claims

end Payload

/-- Every value of a payload is decoded from its text.  What is written has the layout of its type, and
the text is one of the format; and whatever looser form comes, in whatever text of the format with blanks
around it, is decoded as the same value. -/
theorem payloads_round_trip (p : Payload) (a : p.Carrier) :
    decode p.codec (encode p.codec a) = .ok a
      ∧ Loosens p.shape (p.codec.write a) (.ofValue (p.codec.write a))
      ∧ Spells (.value (.ofValue (p.codec.write a))) (encode p.codec a).toList
      ∧ ∀ n, Loosens p.shape (p.codec.write a) n → ∀ g cs g₁, Gap g → Spells (.value n) cs → Gap g₁ →
          decode p.codec (String.ofList (g ++ (cs ++ g₁))) = .ok a := by
  have hwritten : Spells (.value (.ofValue (p.codec.write a))) (encode p.codec a).toList := by
    unfold encode Value.text
    rw [String.toList_ofList]
    exact (renders_write (p.codec.write a)).spells
  have hread : ∀ n, Loosens p.shape (p.codec.write a) n → ∀ g cs g₁, Gap g → Spells (.value n) cs →
      Gap g₁ → decode p.codec (String.ofList (g ++ (cs ++ g₁))) = .ok a :=
    fun n hn g cs g₁ hg hcs hg₁ =>
      decode_of_spells (p.lenient.reads a n hn hcs.skip_eq_none) hg hcs hg₁
  -- what is written is one of the forms that may come
  have hback := hread _ (p.lenient.fits a) [] _ [] .nil hwritten .nil
  rw [List.nil_append, List.append_nil, String.ofList_toList] at hback
  exact ⟨hback, p.lenient.fits a, hwritten, hread⟩

/-- A request of another sender: the user, which is missing, has been left out, and a member that nobody
knows stands in front. -/
def otherRequest : List Char := "\x7b\"trace\": -2.5e3,\"update_mask\":[\"email\"]\x7d".toList

/-- The request of another sender is decoded as what was meant. -/
theorem decode_otherRequest :
    decode updateUserRequest (String.ofList otherRequest) = .ok ⟨none, ["email"]⟩ := by
  have hdigit {d : Char} (hd : d.isDigit = true) : Digits [d] :=
    ⟨List.cons_ne_nil d [], fun c hc => by
      rw [List.mem_singleton.1 hc]
      exact hd⟩
  have hnumber : Numeral "-2.5e3".toList :=
    @Numeral.mk ['-'] ['2'] ['.', '5'] ['e', '3'] (by decide) (hdigit rfl) (by decide)
      (.digits (hdigit rfl)) (@Exponent.digits 'e' [] ['3'] (by decide) (by decide) (hdigit rfl))
  have hspace : Gap [' '] := fun c hc => by
    rw [List.mem_singleton.1 hc]
    rfl
  -- the list of paths is the only member that is kept
  have hkept : LoosensFields [("user", .option Shapes.user), ("update_mask", .plain)]
      [("user", .null), ("update_mask", .array [.string "email"])]
      [("update_mask", .ofValue (.array [.string "email"]))] :=
    .leave (.keep (.plain (.refl _)) .nil)
  have hothers : ∀ o ∈ [("trace", Node.alone "-2.5e3".toList)], o.1 ∉ ["user", "update_mask"] := by
    decide
  have hloose : Loosens Shapes.updateUserRequest (updateUserRequest.write ⟨none, ["email"]⟩)
      (.object (Node.named [("trace", .alone "-2.5e3".toList),
        ("update_mask", .ofValue (.array [.string "email"]))]) none) :=
    .record hkept hothers (.swap _ _ _)
  have hmask := (renders_write (.array [.string "email"])).spells
  have hspells := Spells.object (@Spells.named_cons true "trace" _ _ _ _ _ _ _ _ .nil .nil .nil hspace
    (.scalar (.number hnumber))
    (@Spells.named_cons _ "update_mask" _ _ _ _ _ _ _ _ .nil .nil .nil .nil hmask (.members_nil .nil)))
  have hdecode := (payloads_round_trip .updateUserRequest ⟨none, ["email"]⟩).2.2.2 _ hloose [] _ []
    .nil hspells .nil
  refine Eq.trans (congrArg (fun cs => decode updateUserRequest (String.ofList cs)) ?_) hdecode
  unfold otherRequest
  rfl

end UserDirectory.Wire
