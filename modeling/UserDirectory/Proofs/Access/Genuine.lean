import UserDirectory.Proofs.Access.Parts
/-!
# Only genuine tokens are accepted

A token that is accepted bears the code of its own first two parts under the secret of who accepts it, and
says who its bearer is.  Nothing is known here about how codes are made.

Main statement: `Authority.accepted_genuine`.
-/

namespace UserDirectory.Access

open UserDirectory.Json
open UserDirectory.Text
open UserDirectory.Time (Duration)

/-- A text is a token of an issuer about someone: a header that names the way of signing, a payload that
bears claims, and the code of both, each in letters, with dots between them. -/
structure Genuine (code : List UInt8 → List UInt8) (issuer : String) (token : List Char)
    (claims : Claims) : Prop where
  parts : ∃ header payload : List UInt8,
    token.splitOn '.' = [Base64Url.encode header, Base64Url.encode payload,
        Base64Url.encode (code (Utf8.write (Base64Url.encode header ++ '.' :: Base64Url.encode payload)))]
      ∧ Wire.decodeDocument Access.header (.ofBytes header) = .ok .hs256
      ∧ Names (.ofBytes header) .hs256
      ∧ (Document.ofBytes payload).rest = none
      ∧ Wire.Bears (Document.ofBytes payload).root claims
  issued : claims.issuer = issuer
  someone : claims.userId ≠ ""

/-- The first two parts of a genuine token fix it. -/
theorem Genuine.eq_of_take_eq {code : List UInt8 → List UInt8} {issuer : String}
    {token token' : List Char} {claims claims' : Claims} (h : Genuine code issuer token claims)
    (h' : Genuine code issuer token' claims')
    (hsame : (token.splitOn '.').take 2 = (token'.splitOn '.').take 2) : token = token' := by
  obtain ⟨header, payload, hsplit, _⟩ := h.parts
  obtain ⟨header', payload', hsplit', _⟩ := h'.parts
  rw [hsplit, hsplit'] at hsame
  simp only [List.take_succ_cons, List.take_zero, List.cons.injEq, and_true] at hsame
  -- equal letters of the first two parts have equal codes
  calc token
    _ = ['.'].intercalate (token.splitOn '.') := (List.intercalate_splitOn '.').symm
    _ = ['.'].intercalate (token'.splitOn '.') := by rw [hsplit, hsplit', hsame.1, hsame.2]
    _ = token' := List.intercalate_splitOn '.'

namespace Authority

/-! ## §1. What is checked. -/

theorem checkTimes_eq_ok {claims : Claims} {now : Int64} {u : Unit} (h : checkTimes claims now = .ok u) :
    claims.notBefore ≤ now ∧ now ≤ claims.expiresAt := by
  unfold checkTimes at h
  split at h
  · cases h
  · split at h
    · cases h
    · split at h
      · cases h
      · exact ⟨Int64.not_lt.1 ‹_›, Int64.not_lt.1 ‹_›⟩

theorem checkSource_eq_ok {a : Authority} {claims : Claims} {meant : Bool} {u : Unit}
    (h : a.checkSource claims meant = .ok u) :
    claims.issuer = a.issuer ∧ meant = false ∧ claims.userId ≠ "" := by
  unfold checkSource at h
  split at h
  · cases h
  · rename_i hsource
    rw [not_or, not_or, Classical.not_not, Bool.not_eq_true] at hsource
    exact hsource

/-- A token with the right code is genuine if it comes from the issuer and is about someone. -/
theorem genuine_of_verified {a : Authority} {token : List Char} {claims : Claims} {meant : Bool}
    (h : a.verified token = .ok (claims, meant)) (hissuer : claims.issuer = a.issuer)
    (hsomeone : claims.userId ≠ "") : Genuine a.code a.issuer token claims := by
  obtain ⟨p, rfl, hdot, halg, hcode, hclaims⟩ := verified_eq_ok h
  obtain ⟨header, hheader, hnames⟩ := Parts.algorithm?_eq_some halg
  obtain ⟨payload, hpayload, hrest, hbears, _⟩ := readClaims_eq_some hclaims
  refine ⟨⟨header, payload, ?_, hnames, names_of_decode hnames, hrest, hbears⟩, hissuer, hsomeone⟩
  have hsigned : p.signed = Base64Url.encode header ++ '.' :: Base64Url.encode payload := by
    unfold Parts.signed
    rw [hheader, hpayload]
  rw [Parts.splitOn_text (hheader ▸ Base64Url.dot_not_mem_encode header) hdot
    (hcode ▸ a.dot_not_mem_codeOf _), hcode, hsigned, hheader, hpayload]
  rfl

theorem validate_eq_ok {a : Authority} {token : List Char} {now : Int64} {claims : Claims}
    (h : a.validate token now = .ok claims) :
    Genuine a.code a.issuer token claims ∧ claims.notBefore ≤ now ∧ now ≤ claims.expiresAt := by
  obtain ⟨⟨found, meant⟩, hverified, h⟩ := bind_eq_ok.1 h
  obtain ⟨_, htimes, h⟩ := bind_eq_ok.1 h
  obtain ⟨_, hsource, h⟩ := bind_eq_ok.1 h
  cases h
  obtain ⟨hissuer, _, hsomeone⟩ := checkSource_eq_ok hsource
  exact ⟨genuine_of_verified hverified hissuer hsomeone, checkTimes_eq_ok htimes⟩

/-- A new token is for the bearer of a genuine one, and genuine itself. -/
theorem refresh_eq_ok {a : Authority} {token fresh : List Char} {now : Int64}
    (h : a.refresh token now = .ok fresh) :
    ∃ claims, Genuine a.code a.issuer token claims ∧ fresh = a.issue claims.identity now
      ∧ Genuine a.code a.issuer fresh (a.claimsFor claims.identity now) := by
  obtain ⟨⟨claims, meant⟩, hverified, h⟩ := bind_eq_ok.1 h
  obtain ⟨_, hsource, h⟩ := bind_eq_ok.1 h
  cases h
  obtain ⟨hissuer, _, hsomeone⟩ := checkSource_eq_ok hsource
  exact ⟨claims, genuine_of_verified hverified hissuer hsomeone, rfl,
    genuine_of_verified (a.verified_sign _) rfl hsomeone⟩

/-! ## §2. What is accepted. -/

/-- A token is accepted by itself or for a new one, at some time. -/
def Accepts (a : Authority) (token : List Char) : Prop :=
  (∃ now claims, a.validate token now = .ok claims) ∨ ∃ now fresh, a.refresh token now = .ok fresh

theorem Accepts.genuine {a : Authority} {token : List Char} (h : a.Accepts token) :
    ∃ claims, Genuine a.code a.issuer token claims := by
  rcases h with ⟨now, claims, h⟩ | ⟨now, fresh, h⟩
  · exact ⟨claims, (validate_eq_ok h).1⟩
  · obtain ⟨claims, hgenuine, _⟩ := refresh_eq_ok h
    exact ⟨claims, hgenuine⟩

/-- Who knows a secret accepts nothing but what is genuine under it.  A token that is valid is so at its
time, and its claims are those it bears; a token that is given for another is for the same bearer.  No two
accepted texts differ in their code alone; and a text whose header names another way of signing is refused
for that, whatever else it says. -/
theorem accepted_genuine (mac : List UInt8 → List UInt8 → List UInt8) (secret : String)
    (lifetime : Duration) (issuer : String) :
    let a := withMac mac secret lifetime issuer
    let code := mac (Utf8.write secret.toList)
    (∀ token now claims, a.validate token now = .ok claims →
        Genuine code issuer token claims ∧ claims.notBefore ≤ now ∧ now ≤ claims.expiresAt)
    ∧ (∀ token now fresh, a.refresh token now = .ok fresh →
        ∃ claims, Genuine code issuer token claims ∧ fresh = a.issue claims.identity now
          ∧ Genuine code issuer fresh (a.claimsFor claims.identity now))
    ∧ (∀ token token', a.Accepts token → a.Accepts token' →
        (token.splitOn '.').take 2 = (token'.splitOn '.').take 2 → token = token')
    ∧ (∀ token header payload code alg now,
        token.splitOn '.' = [Base64Url.encode header, payload, code] →
        Wire.decodeDocument Access.header (.ofBytes header) = .ok alg → alg ≠ .hs256 →
        a.validate token now = .error .unsupportedAlgorithm
          ∧ a.refresh token now = .error .unsupportedAlgorithm) := by
  intro a code
  refine ⟨fun token now claims => validate_eq_ok, fun token now fresh => refresh_eq_ok,
    fun token token' h h' hsame => ?_, fun token header payload code alg now hsplit hdecode halg => ?_⟩
  · obtain ⟨claims, hgenuine⟩ := h.genuine
    obtain ⟨claims', hgenuine'⟩ := h'.genuine
    exact hgenuine.eq_of_take_eq hgenuine' hsame
  · unfold validate refresh
    rw [a.verified_of_other_algorithm hsplit hdecode halg]
    exact ⟨rfl, rfl⟩

/-- Codes of one byte: how long the secret and what is signed are. -/
def lengthMac (secret message : List UInt8) : List UInt8 :=
  [UInt8.ofNat (secret.length + message.length)]

/-- A bearer. -/
def ada : Identity := ⟨"1", "ada", "ada@example.org", .ofNames ["admin", "editor"]⟩

/-- The letters of a header that names a way of signing and says nothing else. -/
def headerNaming (alg : Algorithm) : List UInt8 :=
  Utf8.write (Value.object [("alg", .string alg.name)]).text.toList

/-- A token is genuine while it is valid, one that has expired can be given for a new one, no other text
with its first two parts is accepted, and one under a header of its own is refused. -/
theorem accepted_genuine_ada :
    let a := withMac lengthMac "secret" .zero "directory"
    let code := lengthMac (Utf8.write "secret".toList)
    let token := a.issue ada 10
    let other := (⟨Base64Url.encode (headerNaming .hs384), [], []⟩ : Parts).text
    (a.validate token 3610 = .ok (a.claimsFor ada 10)
      ∧ Genuine code "directory" token (a.claimsFor ada 10) ∧ (10 : Int64) ≤ 3610)
    ∧ (a.refresh token 5000 = .ok (a.issue ada 5000)
      ∧ ∃ claims, Genuine code "directory" token claims ∧ a.issue ada 5000 = a.issue claims.identity 5000)
    ∧ (a.Accepts token ∧ ∀ token', a.Accepts token' →
        (token.splitOn '.').take 2 = (token'.splitOn '.').take 2 → token = token')
    ∧ (other.splitOn '.' = [Base64Url.encode (headerNaming .hs384), [], []]
      ∧ a.validate other 10 = .error .unsupportedAlgorithm) := by
  intro a code token other
  obtain ⟨hvalidate, hrefresh, hsame, hother⟩ := accepted_genuine lengthMac "secret" .zero "directory"
  have hvalid : a.validate token 3610 = .ok (a.claimsFor ada 10) := by
    rw [show token = a.sign (a.claimsFor ada 10) from rfl, validate_sign]
    decide +kernel
  have hrefreshed : a.refresh token 5000 = .ok (a.issue ada 5000) := by
    rw [show token = a.sign (a.claimsFor ada 10) from rfl, refresh_sign]
    rfl
  have haccepts : a.Accepts token := .inl ⟨3610, _, hvalid⟩
  have hdecode : Wire.decodeDocument header (.ofBytes (headerNaming .hs384)) = .ok .hs384 := by
    decide +kernel
  have hsplit : other.splitOn '.' = [Base64Url.encode (headerNaming .hs384), [], []] :=
    Parts.splitOn_text (Base64Url.dot_not_mem_encode _) List.not_mem_nil List.not_mem_nil
  obtain ⟨hgenuine, hbefore, _⟩ := hvalidate token 3610 _ hvalid
  obtain ⟨claims, hclaims, hfresh, _⟩ := hrefresh token 5000 _ hrefreshed
  exact ⟨⟨hvalid, hgenuine, by decide⟩, ⟨hrefreshed, claims, hclaims, hfresh⟩,
    ⟨haccepts, fun token' h => hsame token token' haccepts h⟩,
    hsplit, (hother other _ [] [] .hs384 10 hsplit hdecode (by decide)).1⟩

end Authority

end UserDirectory.Access
