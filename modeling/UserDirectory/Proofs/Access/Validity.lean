import UserDirectory.Proofs.Access.Genuine
/-!
# How long a token is valid

A token that was issued can be presented, and is valid from the second it was issued up to and including
the second it expires.  Nothing is known here about how codes are made.

Main statement: `Authority.issued_valid_iff`.
-/

namespace UserDirectory.Access

open UserDirectory.Call (Metadata readValue isReadable)
open UserDirectory.Text
open UserDirectory.Time (Duration)

/-! ## §1. Presenting a token. -/

/-- A character that may stand in the value of a header. -/
def Visible (c : Char) : Prop := 0x20 ≤ c.toNat ∧ c.toNat ≤ 0x7e

/-- A visible character is one byte. -/
theorem utf8EncodeChar_of_visible {c : Char} (h : Visible c) :
    String.utf8EncodeChar c = [UInt8.ofNat c.toNat] := by
  have hsmall : c.val.toNat ≤ 127 := by
    have := h.2
    unfold Char.toNat at this
    omega
  unfold String.utf8EncodeChar
  simp only
  rw [if_pos hsmall]
  rfl

/-- A visible text can be read from the bytes that it is written with. -/
theorem readValue_write {cs : List Char} (h : ∀ c ∈ cs, Visible c) :
    readValue (Utf8.write cs) = some cs := by
  have hbytes : Utf8.write cs = cs.map fun c => UInt8.ofNat c.toNat := by
    unfold Utf8.write
    induction cs with
    | nil => rfl
    | cons c cs ih =>
      rw [List.flatMap_cons, utf8EncodeChar_of_visible (h c List.mem_cons_self),
        ih fun d hd => h d (List.mem_cons_of_mem _ hd)]
      rfl
  have hreadable : (Utf8.write cs).all isReadable = true := by
    rw [hbytes, List.all_map, List.all_eq_true]
    intro c hc
    obtain ⟨hlow, hhigh⟩ := h c hc
    have hnat : (UInt8.ofNat c.toNat).toNat = c.toNat := Utf8.toNat_ofNat (by omega)
    have hfrom : (0x20 : UInt8) ≤ UInt8.ofNat c.toNat := UInt8.le_iff_toNat_le.2 (by rw [hnat]; exact hlow)
    have hto : UInt8.ofNat c.toNat ≤ (0x7e : UInt8) := UInt8.le_iff_toNat_le.2 (by rw [hnat]; exact hhigh)
    show isReadable (UInt8.ofNat c.toNat) = true
    unfold isReadable
    rw [decide_eq_true hfrom, decide_eq_true hto]
    rfl
  have hback : ∀ c ∈ cs, Char.ofNat (UInt8.ofNat c.toNat).toNat = c := by
    intro c hc
    have := (h c hc).2
    rw [Utf8.toNat_ofNat (by omega), Char.ofNat_toNat]
  unfold readValue
  rw [if_pos hreadable, hbytes, List.map_map]
  exact congrArg some ((List.map_congr_left hback).trans (List.map_id cs))

theorem visible_letter {n : Nat} (h : n < 64) : Visible (Base64Url.letter n) := by
  have key : ∀ n : Fin 64,
      0x20 ≤ (Base64Url.letter n.val).toNat ∧ (Base64Url.letter n.val).toNat ≤ 0x7e := by decide
  exact key ⟨n, h⟩

theorem visible_of_mem_encode {bs : List UInt8} {c : Char} (h : c ∈ Base64Url.encode bs) :
    Visible c := by
  obtain ⟨n, hn, rfl⟩ := Base64Url.exists_letter_of_mem_encode h
  exact visible_letter hn

theorem visible_of_mem_bearerWord {c : Char} (h : c ∈ bearerWord) : Visible c := by
  -- over the characters of this word only
  have key : (bearerWord.all fun c => decide (0x20 ≤ c.toNat ∧ c.toNat ≤ 0x7e)) = true := by decide
  have hc : 0x20 ≤ c.toNat ∧ c.toNat ≤ 0x7e := of_decide_eq_true (List.all_eq_true.1 key c h)
  exact hc

/-- A token stands in a header as it is written. -/
theorem Authority.visible_of_mem_sign {a : Authority} {claims : Claims} {c : Char}
    (h : c ∈ a.sign claims) : Visible c := by
  have hdot : Visible '.' := by
    show 0x20 ≤ ('.').toNat ∧ ('.').toNat ≤ 0x7e
    decide
  unfold Authority.sign part Authority.codeOf at h
  simp only [List.mem_append, List.mem_cons] at h
  rcases h with (h | rfl | h) | rfl | h
  · exact visible_of_mem_encode h
  · exact hdot
  · exact visible_of_mem_encode h
  · exact hdot
  · exact visible_of_mem_encode h

/-- A visible token after its word is presented. -/
theorem bearerToken_of_get? {metadata : Metadata} {token : List Char} (hne : token ≠ [])
    (hvisible : ∀ c ∈ token, Visible c)
    (h : metadata.get? authorizationHeader = some (Utf8.write (bearerWord ++ token))) :
    bearerToken (some metadata) = .ok token := by
  have hread : readValue (Utf8.write (bearerWord ++ token)) = some (bearerWord ++ token) :=
    readValue_write fun c hc =>
      (List.mem_append.1 hc).elim visible_of_mem_bearerWord (hvisible c)
  have hword : bearerWord.isPrefixOf (bearerWord ++ token) = true :=
    List.isPrefixOf_iff_prefix.2 (List.prefix_append _ _)
  unfold bearerToken
  simp only
  rw [h]
  simp only
  rw [hread]
  simp only
  rw [if_pos hword, List.drop_left]
  cases token with
  | nil => exact absurd rfl hne
  | cons c cs => rfl

/-! ## §2. When a token expires. -/

/-- The last second that can be told. -/
def lastSecond : Int := 9_223_372_036_854_775_807

/-- How many seconds a token is valid: an hour where the lifetime is zero, else its whole seconds. -/
def validSeconds (lifetime : Duration) : Int := if lifetime = .zero then 3600 else lifetime.seconds

/-- The second a token expires: as long after it was issued as it is valid, at most the last second
there is. -/
def expiry (issued : Int) (lifetime : Duration) : Int := min (issued + validSeconds lifetime) lastSecond

theorem validSeconds_nonneg (lifetime : Duration) : 0 ≤ validSeconds lifetime := by
  unfold validSeconds
  split <;> omega

theorem toInt_lifetimeSeconds (lifetime : Duration) :
    (lifetimeSeconds lifetime).toInt = min (validSeconds lifetime) lastSecond := by
  unfold lifetimeSeconds validSeconds lastSecond
  split
  · decide
  · have hmax : Int64.maxValue.toInt.toNat = 9_223_372_036_854_775_807 := by decide
    rw [hmax, Int64.toInt_ofNat_of_lt (by omega)]
    omega

namespace Authority

theorem toInt_later {now lifetime : Int64} (hnow : 0 ≤ now.toInt) (hlifetime : 0 ≤ lifetime.toInt) :
    (later now lifetime).toInt = min (now.toInt + lifetime.toInt) lastSecond := by
  have hmax : Int64.maxValue.toInt = lastSecond := by decide
  unfold later
  rw [hmax, Int64.toInt_ofInt_of_le] <;> unfold lastSecond <;> omega

theorem toInt_expiresAt (mac : List UInt8 → List UInt8 → List UInt8) (secret issuer : String)
    (lifetime : Duration) (who : Identity) {issued : Int64} (hissued : 0 ≤ issued.toInt) :
    ((withMac mac secret lifetime issuer).claimsFor who issued).expiresAt.toInt
      = expiry issued.toInt lifetime := by
  have hvalid := validSeconds_nonneg lifetime
  have hseconds := toInt_lifetimeSeconds lifetime
  have hlast : 0 ≤ lastSecond := by decide
  show (later issued (lifetimeSeconds lifetime)).toInt = _
  rw [toInt_later hissued (by omega), hseconds]
  unfold expiry
  omega

/-! ## §3. When a token is valid. -/

/-- The token that one authority issues is one that another makes, if both make codes alike. -/
theorem issue_eq_sign (mac : List UInt8 → List UInt8 → List UInt8) (secret issuer : String)
    (lifetime lifetime' : Duration) (who : Identity) (issued : Int64) :
    (withMac mac secret lifetime issuer).issue who issued
      = (withMac mac secret lifetime' issuer).sign
          ((withMac mac secret lifetime issuer).claimsFor who issued) := by
  unfold issue sign codeOf withMac
  rfl

theorem issue_ne_nil (a : Authority) (who : Identity) (issued : Int64) : a.issue who issued ≠ [] := by
  have htext (p : Parts) : p.text ≠ [] := by
    unfold Parts.text
    exact List.append_ne_nil_of_right_ne_nil _ (List.cons_ne_nil _ _)
  unfold issue
  rw [sign_eq_text]
  exact htext _

theorem authenticate_of_bearerToken {a : Authority} {metadata : Option Metadata} {token : List Char}
    (h : bearerToken metadata = .ok token) (now : Int64) :
    a.authenticate metadata now = a.validate token now := by
  unfold authenticate
  rw [h]
  rfl

/-- What is said of a token that was presented as it was issued. -/
theorem authenticate_issued {mac : List UInt8 → List UInt8 → List UInt8} {secret issuer : String}
    {lifetime : Duration} (lifetime' : Duration) {who : Identity} {issued : Int64} (now : Int64)
    {metadata : Metadata}
    (hpresented : metadata.get? authorizationHeader
      = some (Utf8.write (bearerWord ++ (withMac mac secret lifetime issuer).issue who issued))) :
    (withMac mac secret lifetime' issuer).authenticate (some metadata) now
      = (do
        checkTimes ((withMac mac secret lifetime issuer).claimsFor who issued) now
        (withMac mac secret lifetime' issuer).checkSource
          ((withMac mac secret lifetime issuer).claimsFor who issued) false
        pure ((withMac mac secret lifetime issuer).claimsFor who issued)) := by
  have hbearer := bearerToken_of_get? (issue_ne_nil _ who issued)
    (fun c hc => visible_of_mem_sign hc) hpresented
  rw [authenticate_of_bearerToken hbearer, issue_eq_sign mac secret issuer lifetime lifetime',
    validate_sign]

/-- The time of an issued token has come when it was issued, and has passed after it expires. -/
theorem checkTimes_claimsFor {mac : List UInt8 → List UInt8 → List UInt8} {secret issuer : String}
    {lifetime : Duration} {who : Identity} {issued : Int64} (hissued : 0 ≤ issued.toInt) (now : Int64) :
    checkTimes ((withMac mac secret lifetime issuer).claimsFor who issued) now
      = if expiry issued.toInt lifetime < now.toInt then .error .tokenExpired
        else if now < issued then .error .invalidClaims else .ok () := by
  have hexpires := toInt_expiresAt mac secret issuer lifetime who hissued
  have hpositive : 0 ≤ expiry issued.toInt lifetime := by
    have hvalid := validSeconds_nonneg lifetime
    unfold expiry lastSecond
    omega
  unfold checkTimes
  rw [if_neg (by rw [Int64.lt_iff_toInt_lt, hexpires]; exact Int.not_lt.2 hpositive)]
  simp only [Int64.lt_iff_toInt_lt, hexpires]
  rfl

theorem checkSource_claimsFor (mac : List UInt8 → List UInt8 → List UInt8) (secret issuer : String)
    (lifetime lifetime' : Duration) (who : Identity) (issued : Int64) :
    (withMac mac secret lifetime' issuer).checkSource
        ((withMac mac secret lifetime issuer).claimsFor who issued) false
      = if who.userId = "" then .error .invalidClaims else .ok () := by
  unfold checkSource
  by_cases hsomeone : who.userId = ""
  · rw [if_pos hsomeone, if_pos (.inr (.inr hsomeone))]
  · rw [if_neg hsomeone, if_neg]
    rintro (hissuer | hmeant | hnobody)
    · exact hissuer rfl
    · cases hmeant
    · exact hsomeone hnobody

/-- A token that was issued to someone and is presented as it was issued is valid from the second it was
issued up to the second it expires, and then tells who its bearer is; after that it has expired, and before
it says what is not so.  It does not matter how long the tokens of who checks it are valid.  A token that
was issued to nobody is never valid. -/
theorem issued_valid_iff (mac : List UInt8 → List UInt8 → List UInt8) (secret issuer : String)
    (lifetime lifetime' : Duration) (who : Identity) (issued now : Int64) (metadata : Metadata)
    (hissued : 0 ≤ issued)
    (hpresented : metadata.get? authorizationHeader
      = some (Utf8.write (bearerWord ++ (withMac mac secret lifetime issuer).issue who issued))) :
    let result := (withMac mac secret lifetime' issuer).authenticate (some metadata) now
    let expires := expiry issued.toInt lifetime
    (who.userId ≠ "" →
      ((∃ claims, result = .ok claims ∧ claims.identity = who ∧ claims.subject = who.userId
          ∧ claims.issuedAt = issued ∧ claims.notBefore = issued ∧ claims.expiresAt.toInt = expires)
        ↔ issued ≤ now ∧ now.toInt ≤ expires)
      ∧ (expires < now.toInt → result = .error .tokenExpired)
      ∧ (now < issued → result = .error .invalidClaims))
    ∧ (who.userId = "" → ∃ e, result = .error e) := by
  intro result expires
  have hissued : 0 ≤ issued.toInt := Int64.le_iff_toInt_le.1 hissued
  have hresult := authenticate_issued lifetime' now hpresented
  rw [checkTimes_claimsFor hissued, checkSource_claimsFor] at hresult
  have hlate : issued.toInt ≤ expires := by
    have hvalid := validSeconds_nonneg lifetime
    have hlast := issued.toInt_lt
    show _ ≤ expiry _ _
    unfold expiry lastSecond
    omega
  refine ⟨fun hsomeone => ?_, fun hnobody => ?_⟩
  · rw [if_neg hsomeone] at hresult
    refine ⟨⟨?_, ?_⟩, fun hexpired => ?_, fun hearly => ?_⟩
    · -- a result with claims has passed both checks of the time
      rintro ⟨claims, hok, _⟩
      rw [show result = _ from hresult] at hok
      obtain ⟨_, htimes, _⟩ := bind_eq_ok.1 hok
      split at htimes
      · cases htimes
      · split at htimes
        · cases htimes
        · exact ⟨Int64.not_lt.1 ‹_›, Int.not_lt.1 ‹_›⟩
    · rintro ⟨hcome, hleft⟩
      rw [if_neg (Int.not_lt.2 hleft), if_neg (Int64.not_lt.2 hcome)] at hresult
      exact ⟨_, hresult, rfl, rfl, rfl, rfl, toInt_expiresAt mac secret issuer lifetime who hissued⟩
    · rw [if_pos hexpired] at hresult
      exact hresult
    · have hsoon := Int64.lt_iff_toInt_lt.1 hearly
      rw [if_neg (by omega), if_pos hearly] at hresult
      exact hresult
  · rw [if_pos hnobody] at hresult
    cases hresult' : result with
    | error e => exact ⟨e, rfl⟩
    | ok claims =>
      rw [show result = _ from hresult] at hresult'
      obtain ⟨_, _, hresult'⟩ := bind_eq_ok.1 hresult'
      obtain ⟨_, hsource, _⟩ := bind_eq_ok.1 hresult'
      cases hsource

/-- The metadata in which a token is presented. -/
def presenting (token : List Char) : Metadata :=
  ⟨[(authorizationHeader, Utf8.write (bearerWord ++ token))]⟩

/-- Half a second. -/
def halfSecond : Duration := .ofMillis 500

/-- Someone without a name of any kind. -/
def nobody : Identity := ⟨"", "", "", .empty⟩

/-- A token with a lifetime below a second is valid in the very second it was issued, and not in the ones
before and after; one that was issued to nobody is not even then. -/
theorem issued_valid_iff_ada :
    let issuing := withMac lengthMac "secret" halfSecond "directory"
    let checking := withMac lengthMac "secret" .zero "directory"
    let metadata (who : Identity) := presenting (issuing.issue who 10)
    (0 : Int64) ≤ 10
      ∧ (∀ who, (metadata who).get? authorizationHeader
          = some (Utf8.write (bearerWord ++ issuing.issue who 10)))
      ∧ ada.userId ≠ ""
      ∧ (∃ claims, checking.authenticate (some (metadata ada)) 10 = .ok claims ∧ claims.identity = ada)
      ∧ checking.authenticate (some (metadata ada)) 11 = .error .tokenExpired
      ∧ checking.authenticate (some (metadata ada)) 9 = .error .invalidClaims
      ∧ ∃ e, checking.authenticate (some (metadata nobody)) 10 = .error e := by
  intro issuing checking metadata
  have hget (who : Identity) : (metadata who).get? authorizationHeader
      = some (Utf8.write (bearerWord ++ issuing.issue who 10)) := rfl
  have hada (now : Int64) := (issued_valid_iff lengthMac "secret" "directory" halfSecond .zero ada 10 now
    (metadata ada) (by decide) (hget ada)).1 (by decide)
  obtain ⟨claims, hok, hwho, _⟩ := (hada 10).1.2 ⟨by decide, by decide⟩
  exact ⟨by decide, hget, by decide, ⟨claims, hok, hwho⟩, (hada 11).2.1 (by decide),
    (hada 9).2.2 (by decide),
    (issued_valid_iff lengthMac "secret" "directory" halfSecond .zero nobody 10 10
      (metadata nobody) (by decide) (hget nobody)).2 rfl⟩

end Authority

end UserDirectory.Access
