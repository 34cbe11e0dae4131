import Mathlib.Data.List.DropRight
import UserDirectory.Proofs.Access.Renewal
import UserDirectory.TokenTool
/-!
# What the token tool issues, the server accepts

The tool and the server read the same variables, each in its own way.  A token that the tool issues to
someone is valid for a server in the same environment at the second it was issued, and says of its bearer
what the environment says.  A token that is issued to nobody, as the number of the user is there but empty,
is not valid.

Main statements:
  * `run_eq_ok`: what a token is made of that the tool issues;
  * `server_accepts_issued`, and `server_refuses_nobody` for a token that is issued to nobody.
-/

namespace UserDirectory.Text

/-! ## §1. Lists of words. -/

/-- A text has no blanks at its ends once they have been cut off. -/
theorem trim_trim (cs : List Char) : trim (trim cs) = trim cs := by
  have htrim : ∀ cs, trim cs = (cs.dropWhile isBlank).rdropWhile isBlank := fun _ => rfl
  have hstart : (trim cs).dropWhile isBlank = trim cs := by
    rw [List.dropWhile_eq_self_iff]
    intro hne
    -- what is left of a text starts as the text without the blanks at its start
    have hstarts : trim cs <+: cs.dropWhile isBlank := htrim cs ▸ List.rdropWhile_prefix isBlank _
    have hlong : 0 < (cs.dropWhile isBlank).length := Nat.lt_of_lt_of_le hne hstarts.length_le
    have hhead : (trim cs)[0] = (cs.dropWhile isBlank)[0] := hstarts.getElem hne
    rw [hhead]
    exact List.dropWhile_eq_self_iff.1 (List.dropWhile_idempotent isBlank cs) _
  rw [htrim (trim cs), hstart, htrim, List.rdropWhile_idempotent]

end UserDirectory.Text

namespace UserDirectory

open UserDirectory.Text

/-- A text means a role that has the same letters, without the blanks around it and in any case. -/
theorem Role.ofText?_eq_some_iff {s : String} {r : Role} :
    Role.ofText? s = some r ↔ sameLetters (trim s.toList) r.name.toList = true := by
  constructor
  · intro h
    have hfound := List.find?_some h
    exact hfound
  · intro h
    have hletters : (trim s.toList).map lower = r.name.toList.map lower := eq_of_beq h
    -- no two roles have the same letters
    have hapart : ∀ r : Role,
        (Role.all.find? fun q => r.name.toList.map lower == q.name.toList.map lower) = some r := by
      intro r
      cases r <;> decide
    unfold Role.ofText? sameLetters
    rw [hletters]
    exact hapart r

end UserDirectory

namespace UserDirectory.TokenTool

open UserDirectory.Access (Authority Identity)
open UserDirectory.Text

theorem splitCommas_eq (cs : List Char) : splitCommas cs = cs.splitOn ',' := by
  induction cs with
  | nil => rfl
  | cons c cs ih =>
    rw [List.splitOn_cons_eq_if_modifyHead, splitCommas, ih]
    by_cases hc : c = ','
    · rw [if_pos hc, if_pos (beq_iff_eq.2 hc)]
    · rw [if_neg hc, if_neg fun h => hc (beq_iff_eq.1 h)]
      cases hparts : cs.splitOn ',' with
      | nil => exact absurd hparts (List.splitOn_ne_nil ',' cs)
      | cons first more => rfl

/-- A part of a list means a role: it is the name of the role in any case, with or without blanks around. -/
def Means (part : List Char) (r : Role) : Prop := sameLetters (trim part) r.name.toList = true

/-- The words of a list are its parts that are not blank. -/
theorem mem_words_iff {text word : String} :
    word ∈ words text ↔ ∃ part ∈ text.toList.splitOn ',', trim part ≠ [] ∧ word = String.ofList (trim part) := by
  unfold words
  rw [splitCommas_eq]
  constructor
  · intro h
    obtain ⟨cs, hcs, rfl⟩ := List.mem_map.1 h
    obtain ⟨hmem, hne⟩ := List.mem_filter.1 hcs
    obtain ⟨part, hpart, rfl⟩ := List.mem_map.1 hmem
    exact ⟨part, hpart, of_decide_eq_true hne, rfl⟩
  · rintro ⟨part, hpart, hne, rfl⟩
    exact List.mem_map.2 ⟨_, List.mem_filter.2 ⟨List.mem_map.2 ⟨part, hpart, rfl⟩, decide_eq_true hne⟩, rfl⟩

theorem ofText?_trim_iff {part : List Char} {r : Role} :
    Role.ofText? (String.ofList (trim part)) = some r ↔ Means part r := by
  rw [Role.ofText?_eq_some_iff, String.toList_ofList, trim_trim]
  exact Iff.rfl

/-- Roles are read from words if each of the words means one. -/
theorem rolesOf_eq_ok {words : List String} {roles : List Role} (h : rolesOf words = .ok roles) :
    words.map Role.ofText? = roles.map some := by
  induction words generalizing roles with
  | nil =>
    cases h
    rfl
  | cons word more ih =>
    unfold rolesOf at h
    split at h
    · cases h
    · rename_i r hr
      obtain ⟨rs, hrs, h⟩ := bind_eq_ok.1 h
      cases h
      rw [List.map_cons, List.map_cons, hr, ih hrs]

/-- The roles that are read from a list are those that its parts mean, and every part that is not blank
means one. -/
theorem rolesOf_words {text : String} {roles : List Role} (h : rolesOf (words text) = .ok roles) :
    (∀ r, r ∈ roles ↔ ∃ part ∈ text.toList.splitOn ',', Means part r)
      ∧ ∀ part ∈ text.toList.splitOn ',', trim part ≠ [] → ∃ r, Means part r := by
  have hread := rolesOf_eq_ok h
  have hmem : ∀ r, r ∈ roles ↔ ∃ word ∈ words text, Role.ofText? word = some r := by
    intro r
    rw [← List.mem_map, hread]
    exact ⟨List.mem_map_of_mem, fun hr => by
      obtain ⟨r', hr', heq⟩ := List.mem_map.1 hr
      exact Option.some.inj heq ▸ hr'⟩
  refine ⟨fun r => ?_, fun part hpart hne => ?_⟩
  · rw [hmem]
    constructor
    · rintro ⟨word, hword, hr⟩
      obtain ⟨part, hpart, _, rfl⟩ := mem_words_iff.1 hword
      exact ⟨part, hpart, ofText?_trim_iff.1 hr⟩
    · rintro ⟨part, hpart, hr⟩
      refine ⟨_, mem_words_iff.2 ⟨part, hpart, fun hblank => ?_, rfl⟩, ofText?_trim_iff.2 hr⟩
      -- a blank means no role
      unfold Means at hr
      rw [hblank] at hr
      cases r <;> cases hr
  · have hword : Role.ofText? (String.ofList (trim part)) ∈ roles.map some := by
      rw [← hread]
      exact List.mem_map_of_mem (mem_words_iff.2 ⟨part, hpart, hne, rfl⟩)
    obtain ⟨r, _, hr⟩ := List.mem_map.1 hword
    exact ⟨r, ofText?_trim_iff.1 hr.symm⟩

/-! ## §2. What a token is made of. -/

/-- An environment names someone: a number, a name that is the number where there is none, perhaps an
address, and roles. -/
structure Describes (env : Environment) (who : Identity) : Prop where
  userId : env.get? "TOKEN_USER_ID" = some who.userId
  username : who.username = (env.get? "TOKEN_USERNAME").getD who.userId
  email : who.email = (env.get? "TOKEN_EMAIL").getD ""
  /-- the names of the roles are those that some part of the list means -/
  roles : ∀ role, who.roles.contains role = true
    ↔ ∃ r : Role, role = r.name ∧ ∃ part ∈ ((env.get? "TOKEN_ROLES").getD "").toList.splitOn ',', Means part r
  /-- and no part is passed over but blanks -/
  listed : ∀ part ∈ ((env.get? "TOKEN_ROLES").getD "").toList.splitOn ',', trim part ≠ [] →
    ∃ r, Means part r

theorem identityIn_eq_ok {env : Environment} {userId : String} {who : Identity}
    (hid : env.get? "TOKEN_USER_ID" = some userId) (h : identityIn env userId = .ok who) :
    Describes env who := by
  obtain ⟨roles, hroles, h⟩ := bind_eq_ok.1 h
  cases h
  obtain ⟨hmem, hlisted⟩ := rolesOf_words hroles
  refine ⟨hid, rfl, rfl, fun role => ?_, hlisted⟩
  show (Access.RoleNames.ofNames (roles.map Role.name)).contains role = true ↔ _
  unfold SortedMap.contains
  rw [Wire.ofNames_get?]
  constructor
  · intro h
    split at h
    · rename_i hrole
      obtain ⟨r, hr, rfl⟩ := List.mem_map.1 hrole
      exact ⟨r, rfl, (hmem r).1 hr⟩
    · cases h
  · rintro ⟨r, rfl, hr⟩
    rw [if_pos (List.mem_map_of_mem ((hmem r).2 hr))]
    rfl

theorem need_eq_ok {env : Environment} {name v : String} (h : need env name = .ok v) :
    env.get? name = some v := by
  unfold need at h
  split at h
  · cases h
    assumption
  · cases h

theorem secretIn_eq_ok {env : Environment} {secret : String} (h : secretIn env = .ok secret) :
    env.get? "JWT_SECRET" = some secret := by
  obtain ⟨found, hfound, h⟩ := bind_eq_ok.1 h
  split at h
  · cases h
  · cases h
    exact need_eq_ok hfound

/-- A token is issued if all that it is made of can be had. -/
theorem run_eq_ok_iff {env : Environment} {now : Int64} {token : String} :
    run env now = .ok token ↔ ∃ secret userId lifetime who, secretIn env = .ok secret
      ∧ need env "TOKEN_USER_ID" = .ok userId ∧ lifetimeIn env = .ok lifetime
      ∧ identityIn env userId = .ok who
      ∧ token = String.ofList
          ((Authority.ofSecret secret (.ofSeconds lifetime) (Settings.issuerIn env)).issue who now) := by
  constructor
  · intro h
    obtain ⟨secret, hsecret, h⟩ := bind_eq_ok.1 h
    obtain ⟨userId, hid, h⟩ := bind_eq_ok.1 h
    obtain ⟨lifetime, hlifetime, h⟩ := bind_eq_ok.1 h
    obtain ⟨who, hwho, h⟩ := bind_eq_ok.1 h
    have htoken : String.ofList
        ((Authority.ofSecret secret (.ofSeconds lifetime) (Settings.issuerIn env)).issue who now) = token :=
      Except.ok.inj h
    exact ⟨secret, userId, lifetime, who, hsecret, hid, hlifetime, hwho, htoken.symm⟩
  · rintro ⟨secret, userId, lifetime, who, hsecret, hid, hlifetime, hwho, rfl⟩
    exact bind_eq_ok.2 ⟨_, hsecret, bind_eq_ok.2 ⟨_, hid, bind_eq_ok.2 ⟨_, hlifetime,
      bind_eq_ok.2 ⟨_, hwho, rfl⟩⟩⟩⟩

end UserDirectory.TokenTool

/-! ## §3. The server. -/

namespace UserDirectory

open UserDirectory.Access (Authority)

/-- Who accepts tokens for a server that asks for them. -/
def Settings.authority (s : Settings) : Authority :=
  .ofSecret s.secret (.ofSeconds s.lifetime) s.issuer

/-- A server that asks for tokens has the secret and the issuer of its environment. -/
theorem Settings.authority_of_environment {env : Environment} {s : Settings}
    (h : Settings.ofEnvironment env = .ok s) (hon : s.authEnabled = true) :
    env.get? "JWT_SECRET" = some s.secret ∧ s.issuer = Settings.issuerIn env := by
  obtain ⟨secret, hsecret, h⟩ := bind_eq_ok.1 h
  obtain ⟨policy, _, h⟩ := bind_eq_ok.1 h
  cases h
  have hon : Settings.flag env "AUTH_ENABLED" = true := hon
  refine ⟨?_, rfl⟩
  show _ = some secret
  unfold Settings.secretIn at hsecret
  split at hsecret
  · rename_i found hfound
    cases hsecret
    exact (Option.filter_eq_some_iff.1 hfound).1
  · rw [hon, if_pos rfl] at hsecret
    cases hsecret

end UserDirectory

namespace UserDirectory.TokenTool

open UserDirectory.Access (Authority expiry lastSecond validSeconds_nonneg)
open UserDirectory.Text
open UserDirectory.Time (Duration)

section

variable {env : Environment} {now : Int64} {token : String} {settings : Settings}

/-- What the tool issues, an authority has issued that makes codes as the server does, to the one whom the
environment names. -/
theorem issued_by_kin (htoken : run env now = .ok token)
    (hsettings : Settings.ofEnvironment env = .ok settings) (hon : settings.authEnabled = true) :
    ∃ lifetime who, Describes env who
      ∧ token.toList = (Authority.ofSecret settings.secret lifetime settings.issuer).issue who now := by
  obtain ⟨secret, userId, lifetime, who, hsecret, hid, _, hwho, rfl⟩ := run_eq_ok_iff.1 htoken
  obtain ⟨hsame, hissuer⟩ := Settings.authority_of_environment hsettings hon
  cases (secretIn_eq_ok hsecret).symm.trans hsame
  exact ⟨.ofSeconds lifetime, who, identityIn_eq_ok (need_eq_ok hid) hwho,
    by rw [hissuer, String.toList_ofList]⟩

/-- A token has not expired at the second it is issued. -/
theorem le_expiry (now : Int64) (lifetime : Duration) : now.toInt ≤ expiry now.toInt lifetime := by
  have hvalid := validSeconds_nonneg lifetime
  have hlast := now.toInt_lt
  unfold expiry lastSecond
  omega

/-- A token that is issued to nobody, as the number of the user is there but empty, is not valid. -/
theorem validate_of_nobody (hnow : 0 ≤ now) (htoken : run env now = .ok token)
    (hsettings : Settings.ofEnvironment env = .ok settings) (hon : settings.authEnabled = true)
    (hnobody : env.get? "TOKEN_USER_ID" = some "") :
    settings.authority.validate token.toList now = .error .invalidClaims := by
  obtain ⟨lifetime, who, hwho, hissued⟩ := issued_by_kin htoken hsettings hon
  have hid : who.userId = "" := Option.some.inj (hwho.userId.symm.trans hnobody)
  have hleft := le_expiry now lifetime
  rw [hissued]
  unfold Settings.authority
  rw [Authority.ofSecret_eq_withMac, Authority.issue_eq_sign Access.Mac.code settings.secret
      settings.issuer lifetime (.ofSeconds settings.lifetime), Authority.validate_sign,
    Authority.checkTimes_claimsFor (Int64.le_iff_toInt_le.1 hnow), Authority.checkSource_claimsFor,
    if_neg (Int.not_lt.2 hleft), if_neg (Int64.not_lt.2 (Int64.le_refl now)), if_pos hid]
  rfl

end

/-- A token that the tool issues to someone is valid for every server in the same environment that asks for
tokens, at the second it was issued, and says of its bearer what the environment says. -/
theorem server_accepts_issued (env : Environment) (now : Int64) (token : String) (settings : Settings)
    (hnow : 0 ≤ now) (htoken : run env now = .ok token)
    (hsettings : Settings.ofEnvironment env = .ok settings) (hon : settings.authEnabled = true)
    (hsomeone : env.get? "TOKEN_USER_ID" ≠ some "") :
    ∃ claims, settings.authority.validate token.toList now = .ok claims
      ∧ Describes env claims.identity := by
  obtain ⟨lifetime, who, hwho, hissued⟩ := issued_by_kin htoken hsettings hon
  have hid : who.userId ≠ "" := fun hempty => hsomeone (hempty ▸ hwho.userId)
  refine ⟨(Authority.ofSecret settings.secret lifetime settings.issuer).claimsFor who now, ?_, hwho⟩
  rw [hissued]
  unfold Settings.authority
  rw [Authority.ofSecret_eq_withMac]
  exact Authority.validate_issue Access.Mac.code settings.secret settings.issuer lifetime _ hid hnow
    (Int64.le_refl now) (le_expiry now lifetime)

/-- The variables of a server that asks for tokens and of the tool beside it, for a user with a number. -/
def environmentOf (userId : String) : Environment :=
  .ofList [("AUTH_ENABLED", " On "), ("JWT_SECRET", "secret"), ("JWT_EXPIRY", " 0 "),
    ("TOKEN_EMAIL", "ada@example.org"), ("TOKEN_ROLES", " moderator,, Guest ,"), ("TOKEN_USER_ID", userId)]

/-- What a server comes to in them. -/
def settingsThere : Settings :=
  { Settings.trial with secret := "secret", issuer := "roster", streamBuffer := 32 }

/-- Somebody with two roles, whatever the blanks, the commas and the case of the letters in their list. -/
theorem server_accepts_issued_moderator :
    (0 : Int64) ≤ 10 ∧ Settings.ofEnvironment (environmentOf "7") = .ok settingsThere
      ∧ settingsThere.authEnabled = true ∧ (environmentOf "7").get? "TOKEN_USER_ID" ≠ some ""
      ∧ ∃ token, run (environmentOf "7") 10 = .ok token
        ∧ ∃ claims, settingsThere.authority.validate token.toList 10 = .ok claims
          ∧ Describes (environmentOf "7") claims.identity := by
  have hrun : ∃ token, run (environmentOf "7") 10 = .ok token :=
    ⟨_, run_eq_ok_iff.2 ⟨"secret", "7", 0,
      ⟨"7", "7", "ada@example.org", .ofNames ["MODERATOR", "GUEST"]⟩, rfl, rfl, rfl, rfl, rfl⟩⟩
  obtain ⟨token, htoken⟩ := hrun
  have hsettings : Settings.ofEnvironment (environmentOf "7") = .ok settingsThere := rfl
  exact ⟨by decide, hsettings, rfl, by decide +kernel, token, htoken,
    server_accepts_issued _ 10 token _ (by decide) htoken hsettings rfl (by decide +kernel)⟩

/-- A token is issued to nobody, and a server in the same environment refuses it at that very second. -/
theorem server_refuses_nobody :
    ∃ token, run (environmentOf "") 10 = .ok token
      ∧ Settings.ofEnvironment (environmentOf "") = .ok settingsThere ∧ settingsThere.authEnabled = true
      ∧ settingsThere.authority.validate token.toList 10 = .error .invalidClaims := by
  have hrun : ∃ token, run (environmentOf "") 10 = .ok token :=
    ⟨_, run_eq_ok_iff.2 ⟨"secret", "", 0,
      ⟨"", "", "ada@example.org", .ofNames ["MODERATOR", "GUEST"]⟩, rfl, rfl, rfl, rfl, rfl⟩⟩
  obtain ⟨token, htoken⟩ := hrun
  have hsettings : Settings.ofEnvironment (environmentOf "") = .ok settingsThere := rfl
  exact ⟨token, htoken, hsettings, rfl,
    validate_of_nobody (by decide) htoken hsettings rfl (by decide +kernel)⟩

end UserDirectory.TokenTool
