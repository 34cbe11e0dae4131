import Mathlib.Data.List.Induction
import UserDirectory.Proofs.Access.Validity
/-!
# Giving a token for a new one

A token can be given for a new one before its time has come and after it has passed.  Everything else that
is asked of a valid token is asked of it then, too; so who may have a new token could, at the right time,
use the old one, and a new token is for the same bearer, however often it is renewed.

Main statements:
  * `Authority.refresh_eq_ok_iff`, `Authority.Renewable.validate_eq`: what is asked of a token, and when;
  * `Authority.Renewed.bearer`: a token that has been renewed any number of times;
  * `Authority.renewal_waives_time_only`.
-/

namespace UserDirectory.Access.Authority

open UserDirectory.Text
open UserDirectory.Time (Duration)

variable {a : Authority} {token fresh : List Char} {claims : Claims}

/-! ## §1. What is asked of a token. -/

/-- A token bears claims that are asked for no time: it has the right code, comes from this authority, is
meant for nobody else and is about someone. -/
def Renewable (a : Authority) (token : List Char) (claims : Claims) : Prop :=
  ∃ meant, a.verified token = .ok (claims, meant) ∧ a.checkSource claims meant = .ok ()

/-- A token that bears claims is given for a new one about the same bearer, and no other is. -/
theorem refresh_eq_ok_iff {now : Int64} :
    a.refresh token now = .ok fresh ↔ ∃ claims, a.Renewable token claims ∧ fresh = a.issue claims.identity now := by
  constructor
  · intro h
    obtain ⟨⟨claims, meant⟩, hverified, h⟩ := bind_eq_ok.1 h
    obtain ⟨_, hsource, h⟩ := bind_eq_ok.1 h
    cases h
    exact ⟨claims, ⟨meant, hverified, hsource⟩, rfl⟩
  · rintro ⟨claims, ⟨meant, hverified, hsource⟩, rfl⟩
    exact bind_eq_ok.2 ⟨_, hverified, bind_eq_ok.2 ⟨_, hsource, rfl⟩⟩

/-- What is said of a token at a time, if only the time can be wrong. -/
theorem Renewable.validate_eq (h : a.Renewable token claims) (now : Int64) :
    a.validate token now
      = if 0 ≤ claims.expiresAt ∧ claims.expiresAt < now then .error .tokenExpired
        else if claims.expiresAt < 0 ∨ now < claims.notBefore then .error .invalidClaims
        else .ok claims := by
  obtain ⟨meant, hverified, hsource⟩ := h
  have htimes : a.validate token now = (checkTimes claims now >>= fun _ => .ok claims) := by
    unfold validate
    rw [hverified]
    show (checkTimes claims now >>= fun _ => a.checkSource claims meant >>= fun _ => .ok claims) = _
    rw [hsource]
    rfl
  rw [htimes]
  unfold checkTimes
  by_cases hnever : claims.expiresAt < 0
  · -- a token that says no time at which it expires has not expired
    rw [if_pos hnever, if_neg fun hpast => Int64.not_lt.2 hpast.1 hnever, if_pos (.inl hnever)]
    rfl
  · have hsome : 0 ≤ claims.expiresAt := Int64.not_lt.1 hnever
    rw [if_neg hnever]
    by_cases hpast : claims.expiresAt < now
    · rw [if_pos hpast, if_pos ⟨hsome, hpast⟩]
      rfl
    · have hkept : ¬(0 ≤ claims.expiresAt ∧ claims.expiresAt < now) := fun h => hpast h.2
      rw [if_neg hpast, if_neg hkept]
      by_cases hearly : now < claims.notBefore
      · rw [if_pos hearly, if_pos (.inr hearly)]
        rfl
      · rw [if_neg hearly, if_neg (not_or.2 ⟨hnever, hearly⟩)]
        rfl

/-- A token that is valid at some time can be given for a new one. -/
theorem renewable_of_validate {now : Int64} (h : a.validate token now = .ok claims) :
    a.Renewable token claims := by
  obtain ⟨⟨found, meant⟩, hverified, h⟩ := bind_eq_ok.1 h
  obtain ⟨_, _, h⟩ := bind_eq_ok.1 h
  obtain ⟨_, hsource, h⟩ := bind_eq_ok.1 h
  cases h
  exact ⟨meant, hverified, hsource⟩

theorem Renewable.genuine (h : a.Renewable token claims) : Genuine a.code a.issuer token claims := by
  obtain ⟨meant, hverified, hsource⟩ := h
  obtain ⟨hissuer, _, hsomeone⟩ := checkSource_eq_ok hsource
  exact genuine_of_verified hverified hissuer hsomeone

/-- A token that is made of claims bears them, if they are about someone and name the issuer. -/
theorem renewable_sign (hissuer : claims.issuer = a.issuer) (hsomeone : claims.userId ≠ "") :
    a.Renewable (a.sign claims) claims := by
  refine ⟨false, a.verified_sign claims, ?_⟩
  unfold checkSource
  rw [if_neg]
  rintro (hother | hmeant | hnobody)
  · exact hother hissuer
  · cases hmeant
  · exact hsomeone hnobody

/-- What a token is refused for that says what is not so; the text itself is looked at before. -/
theorem checkSource_error {meant : Bool} {e : AuthError} (h : a.checkSource claims meant = .error e) :
    e = .invalidClaims := by
  unfold checkSource at h
  split at h
  · cases h
    rfl
  · cases h

/-- A token that is refused for its text is so at any time. -/
theorem validate_of_refused {now : Int64} {e : AuthError} (h : a.refresh token now = .error e)
    (htext : e ≠ .invalidClaims) (now' : Int64) : a.validate token now' = .error e := by
  unfold refresh at h
  unfold validate
  cases hverified : a.verified token with
  | error e' =>
    rw [hverified] at h
    cases h
    rfl
  | ok found =>
    rw [hverified] at h
    cases hsource : a.checkSource found.1 found.2 with
    | error e' =>
      have h : (a.checkSource found.1 found.2 >>= fun _ => .ok (a.issue found.1.identity now))
        = .error e := h
      rw [hsource] at h
      cases h
      exact absurd (checkSource_error hsource) htext
    | ok _ =>
      have h : (a.checkSource found.1 found.2 >>= fun _ => .ok (a.issue found.1.identity now))
        = .error e := h
      rw [hsource] at h
      cases h

/-! ## §2. Renewing a token again and again. -/

/-- A token is given for a new one at some times, one after another, and the last one is left. -/
inductive Renewed (a : Authority) (token : List Char) : List Int64 → List Char → Prop
  | unchanged : Renewed a token [] token
  | again {times : List Int64} {last fresh : List Char} {now : Int64} (h : Renewed a token times last)
      (hnow : a.refresh last now = .ok fresh) : Renewed a token (times ++ [now]) fresh

/-- However often a token is renewed, the last one bears claims about the same bearer; and unless it is the
first one, it was issued at the last of the times. -/
theorem Renewed.bearer {times : List Int64} (h : a.Renewed token times fresh)
    (htoken : a.Renewable token claims) :
    (∃ last, a.Renewable fresh last ∧ last.identity = claims.identity)
      ∧ ∀ now ∈ times.getLast?, fresh = a.issue claims.identity now := by
  induction h with
  | unchanged => exact ⟨⟨claims, htoken, rfl⟩, nofun⟩
  | @again times last fresh now _ hnow ih =>
    obtain ⟨⟨found, hfound, hwho⟩, _⟩ := ih
    obtain ⟨found', hfound', rfl⟩ := refresh_eq_ok_iff.1 hnow
    -- a token bears one set of claims
    obtain ⟨meant, hverified, hsource⟩ := hfound
    obtain ⟨meant', hverified', _⟩ := hfound'
    cases hverified.symm.trans hverified'
    have hsomeone : found.identity.userId ≠ "" := (checkSource_eq_ok hsource).2.2
    rw [hwho] at hsomeone ⊢
    refine ⟨⟨a.claimsFor claims.identity now, renewable_sign rfl hsomeone, rfl⟩, fun now' hmem => ?_⟩
    rw [List.getLast?_append, List.getLast?_singleton] at hmem
    cases hmem
    rfl

/-- A token that can be renewed once can be renewed at any times. -/
theorem exists_renewed (h : a.Renewable token claims) (times : List Int64) :
    ∃ fresh, a.Renewed token times fresh := by
  induction times using List.reverseRecOn with
  | nil => exact ⟨token, .unchanged⟩
  | append_singleton times now ih =>
    obtain ⟨last, hlast⟩ := ih
    obtain ⟨⟨found, hfound, _⟩, _⟩ := hlast.bearer h
    exact ⟨_, hlast.again (refresh_eq_ok_iff.2 ⟨found, hfound, rfl⟩)⟩

/-- A token that was issued to someone is valid from the second it was issued up to the second it expires,
however long the tokens of who checks it are valid. -/
theorem validate_issue (mac : List UInt8 → List UInt8 → List UInt8) (secret issuer : String)
    (lifetime lifetime' : Duration) {who : Identity} (hsomeone : who.userId ≠ "") {issued now : Int64}
    (hissued : 0 ≤ issued) (hcome : issued ≤ now) (hleft : now.toInt ≤ expiry issued.toInt lifetime) :
    (withMac mac secret lifetime' issuer).validate ((withMac mac secret lifetime issuer).issue who issued)
        now = .ok ((withMac mac secret lifetime issuer).claimsFor who issued) := by
  have hissued' : 0 ≤ issued.toInt := Int64.le_iff_toInt_le.1 hissued
  have hcome' : issued.toInt ≤ now.toInt := Int64.le_iff_toInt_le.1 hcome
  have hexpires := toInt_expiresAt mac secret issuer lifetime who hissued'
  have hpositive : 0 ≤ expiry issued.toInt lifetime := by omega
  have hrenewable : (withMac mac secret lifetime' issuer).Renewable
      ((withMac mac secret lifetime issuer).issue who issued)
      ((withMac mac secret lifetime issuer).claimsFor who issued) := by
    rw [issue_eq_sign mac secret issuer lifetime lifetime']
    exact renewable_sign rfl hsomeone
  rw [hrenewable.validate_eq now, if_neg, if_neg]
  · rintro (hnever | hearly)
    · rw [Int64.lt_iff_toInt_lt, hexpires] at hnever
      exact Int.not_lt.2 hpositive hnever
    · exact Int64.not_lt.2 hcome hearly
  · rintro ⟨_, hpast⟩
    rw [Int64.lt_iff_toInt_lt, hexpires] at hpast
    exact Int.not_lt.2 hleft hpast

/-! ## §3. The window of time, and nothing else. -/

/-- Of a token that can be renewed at some time only the times decide whether it is valid: it has expired
once the second has passed at which it says that it does, and else it says what is not so as long as it names
no such second or its time has not come.  However often it is renewed, and at whatever times, each renewal
succeeds, and the last token is valid from its issue to its expiry and is for the bearer of the first.  What
is valid at some time can be renewed at any; and what cannot be renewed because of its form, its way of
signing or its code is refused for that at any time. -/
theorem renewal_waives_time_only (mac : List UInt8 → List UInt8 → List UInt8) (secret issuer : String)
    (lifetime : Duration) (token : List Char) :
    let a := withMac mac secret lifetime issuer
    (∀ now fresh, a.refresh token now = .ok fresh →
      ∃ claims, Genuine (mac (Utf8.write secret.toList)) issuer token claims
        ∧ (∀ t, a.validate token t
          = if 0 ≤ claims.expiresAt ∧ claims.expiresAt < t then .error .tokenExpired
            else if claims.expiresAt < 0 ∨ t < claims.notBefore then .error .invalidClaims
            else .ok claims)
        ∧ (∀ times, ∃ last, a.Renewed token times last)
        ∧ ∀ times issued last, a.Renewed token (times ++ [issued]) last → 0 ≤ issued →
          ∀ t, issued ≤ t → t.toInt ≤ expiry issued.toInt lifetime →
            ∃ found, a.validate last t = .ok found ∧ found.identity = claims.identity)
    ∧ (∀ now claims, a.validate token now = .ok claims → ∀ t, ∃ fresh, a.refresh token t = .ok fresh)
    ∧ ∀ now e, a.refresh token now = .error e →
        e = .malformedToken ∨ e = .unsupportedAlgorithm ∨ e = .invalidSignature →
        ∀ t, a.validate token t = .error e := by
  intro a
  refine ⟨fun now fresh hfresh => ?_, fun now claims hvalid t => ?_, fun now e hrefused htext t => ?_⟩
  · obtain ⟨claims, hclaims, _⟩ := refresh_eq_ok_iff.1 hfresh
    have hsomeone : claims.identity.userId ≠ "" := hclaims.genuine.someone
    refine ⟨claims, hclaims.genuine, hclaims.validate_eq, exists_renewed hclaims, ?_⟩
    intro times issued last hlast hissued t hcome hleft
    have hissue : last = a.issue claims.identity issued :=
      (hlast.bearer hclaims).2 issued (by rw [List.getLast?_append]; rfl)
    rw [hissue]
    exact ⟨_, validate_issue mac secret issuer lifetime lifetime hsomeone hissued hcome hleft, rfl⟩
  · exact ⟨_, refresh_eq_ok_iff.2 ⟨claims, renewable_of_validate hvalid, rfl⟩⟩
  · refine validate_of_refused hrefused ?_ t
    rintro rfl
    rcases htext with h | h | h <;> cases h

/-- A token that expired long ago is renewed three times; the last one is valid for an hour and about its
bearer.  A text that is no token is refused for that at any time. -/
theorem renewal_waives_time_only_ada :
    let a := withMac lengthMac "secret" .zero "directory"
    let token := a.issue ada 10
    a.refresh token 5000 = .ok (a.issue ada 5000)
      ∧ (∀ t : Int64, a.validate token t
        = if (0 : Int64) ≤ 3610 ∧ (3610 : Int64) < t then .error .tokenExpired
          else if (3610 : Int64) < 0 ∨ t < 10 then .error .invalidClaims else .ok (a.claimsFor ada 10))
      ∧ (∃ last, a.Renewed token [5000, 5000, 20000] last)
      ∧ (∀ last, a.Renewed token [5000, 5000, 20000] last →
          ∃ found, a.validate last 23600 = .ok found ∧ found.identity = ada)
      ∧ a.validate token 3610 = .ok (a.claimsFor ada 10)
      ∧ (∃ fresh, a.refresh token 0 = .ok fresh)
      ∧ a.refresh "no token".toList 10 = .error .malformedToken
      ∧ a.validate "no token".toList 20 = .error .malformedToken := by
  intro a token
  have htoken : a.verified token = .ok (a.claimsFor ada 10, false) := a.verified_sign _
  have hrefreshed : a.refresh token 5000 = .ok (a.issue ada 5000) := a.refresh_sign _ _
  have hvalid : a.validate token 3610 = .ok (a.claimsFor ada 10) := by
    rw [show token = a.sign (a.claimsFor ada 10) from rfl, validate_sign]
    decide +kernel
  have hmalformed : a.refresh "no token".toList 10 = .error .malformedToken := by decide +kernel
  obtain ⟨hrenewed, hback, _⟩ := renewal_waives_time_only lengthMac "secret" "directory" .zero token
  obtain ⟨claims, hgenuine, htimes, hall, hlast⟩ := hrenewed 5000 _ hrefreshed
  -- the claims are those it was issued with, as it is valid at some time
  have hclaims : claims = a.claimsFor ada 10 := by
    have h := hvalid.symm.trans (htimes 3610)
    split at h
    · cases h
    · split at h
      · cases h
      · exact (Except.ok.inj h).symm
  subst hclaims
  obtain ⟨_, _, hrefused⟩ :=
    renewal_waives_time_only lengthMac "secret" "directory" .zero "no token".toList
  exact ⟨hrefreshed, htimes, hall _,
    fun last h => hlast [5000, 5000] 20000 last h (by decide) 23600 (by decide) (by decide), hvalid,
    hback 3610 _ hvalid 0, hmalformed, hrefused 10 _ hmalformed (.inl rfl) 20⟩

end UserDirectory.Access.Authority
