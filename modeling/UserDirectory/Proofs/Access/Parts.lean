import UserDirectory.Access.Token
import UserDirectory.Proofs.Wire.Claims
/-!
# Tokens taken apart

A token is accepted by its text: it must have three parts between dots, and no letter of a part is a
dot.  So the first two parts fix the third, and the three parts fix the token.

Main statements:
  * `Authority.verified_eq_ok`: what a token with the right code is made of;
  * `Authority.verified_sign`: a token that is made of claims has the right code and bears them.
-/

namespace UserDirectory.Text.Base64Url

/-- Bytes are written in the 64 letters. -/
theorem exists_letter_of_mem_encode {bs : List UInt8} {c : Char} (h : c ∈ encode bs) :
    ∃ n < 64, c = letter n := by
  fun_induction encode bs with
  | case1 => cases h
  | case2 a =>
    have ha := a.toNat_lt
    simp only [List.mem_cons, List.not_mem_nil, or_false] at h
    rcases h with rfl | rfl <;> exact ⟨_, by omega, rfl⟩
  | case3 a b =>
    have ha := a.toNat_lt
    have hb := b.toNat_lt
    simp only [List.mem_cons, List.not_mem_nil, or_false] at h
    rcases h with rfl | rfl | rfl <;> exact ⟨_, by omega, rfl⟩
  | case4 a b c rest ih =>
    have ha := a.toNat_lt
    have hb := b.toNat_lt
    have hc := c.toNat_lt
    simp only [List.mem_cons] at h
    rcases h with rfl | rfl | rfl | rfl | h
    · exact ⟨_, by omega, rfl⟩
    · exact ⟨_, by omega, rfl⟩
    · exact ⟨_, by omega, rfl⟩
    · exact ⟨_, by omega, rfl⟩
    · exact ih h

/-- No dot stands among letters. -/
theorem dot_not_mem_encode (bs : List UInt8) : '.' ∉ encode bs := by
  intro h
  obtain ⟨n, hn, hdot⟩ := exists_letter_of_mem_encode h
  have hvalue := value?_letter hn
  rw [← hdot] at hvalue
  cases hvalue

end UserDirectory.Text.Base64Url

namespace UserDirectory.Access

open UserDirectory.Json
open UserDirectory.Text

/-! ## §1. Between dots. -/

/-- There is one part more than there are dots. -/
theorem length_splitOn (cs : List Char) : (cs.splitOn '.').length = cs.count '.' + 1 := by
  induction cs with
  | nil => rfl
  | cons c cs ih =>
    rw [List.splitOn_cons_eq_if_modifyHead, List.count_cons]
    split
    · rw [List.length_cons, ih]
    · rw [List.length_modifyHead, ih, Nat.add_zero]

/-- The last part and what stands before its dot. -/
theorem splitLast_append {front tail : List Char} (h : '.' ∉ tail) :
    splitLast (front ++ '.' :: tail) = some (front, tail) := by
  have hall : ∀ c ∈ tail.reverse, decide (c ≠ '.') = true := by
    intro c hc
    rw [List.mem_reverse] at hc
    exact decide_eq_true fun heq => h (heq ▸ hc)
  unfold splitLast
  rw [List.reverse_append, List.reverse_cons, List.append_assoc,
    List.takeWhile_append_of_pos hall, List.dropWhile_append_of_pos hall, List.singleton_append,
    List.takeWhile_cons_of_neg (by decide), List.dropWhile_cons_of_neg (by decide), List.append_nil]
  simp only [List.reverse_reverse]

/-- What has a last part has a dot before it. -/
theorem eq_of_splitLast_eq_some {cs front tail : List Char} (h : splitLast cs = some (front, tail)) :
    cs = front ++ '.' :: tail ∧ '.' ∉ tail := by
  unfold splitLast at h
  have hparts : cs.reverse.takeWhile (fun c => decide (c ≠ '.'))
      ++ cs.reverse.dropWhile (fun c => decide (c ≠ '.')) = cs.reverse :=
    List.takeWhile_append_dropWhile
  cases hrest : cs.reverse.dropWhile (fun c => decide (c ≠ '.')) with
  | nil =>
    rw [hrest] at h
    cases h
  | cons d rest =>
    rw [hrest] at h hparts
    simp only [Option.some.injEq, Prod.mk.injEq] at h
    obtain ⟨rfl, rfl⟩ := h
    -- what the letters before the last dot stop at is that dot
    have hd : d = '.' := by
      have hhead := List.head_dropWhile_not (fun c : Char => decide (c ≠ '.')) (l := cs.reverse)
        (by rw [hrest]; exact List.cons_ne_nil _ _)
      simp only [hrest, List.head_cons] at hhead
      exact Classical.byContradiction fun hne => by rw [decide_eq_true hne] at hhead; cases hhead
    refine ⟨?_, fun hmem => ?_⟩
    · have hrev := congrArg List.reverse hparts
      rw [List.reverse_reverse, List.reverse_append, List.reverse_cons, List.append_assoc,
        List.singleton_append, hd] at hrev
      exact hrev.symm
    · have hne := List.all_eq_true.1 List.all_takeWhile _ (List.mem_reverse.1 hmem)
      exact absurd rfl (of_decide_eq_true hne)

namespace Parts

/-- A text with two dots, none of them in its first part, has three parts. -/
theorem splitOn_text {p : Parts} (hheader : '.' ∉ p.header) (hpayload : '.' ∉ p.payload)
    (hcode : '.' ∉ p.code) : p.text.splitOn '.' = [p.header, p.payload, p.code] := by
  unfold text signed
  rw [List.append_assoc, List.cons_append, List.splitOn_append_cons_self_of_not_mem hheader,
    List.splitOn_append_cons_self_of_not_mem hpayload, List.splitOn_eq_singleton hcode]

/-- The parts of a text with two dots. -/
theorem ofText?_text {p : Parts} (hpayload : '.' ∉ p.payload) (hcode : '.' ∉ p.code) :
    ofText? p.text = some p := by
  unfold ofText? text signed
  simp only [bind, Option.bind]
  rw [splitLast_append hcode]
  simp only
  rw [splitLast_append hpayload]

/-- What has parts is the text of its parts. -/
theorem text_of_ofText? {token : List Char} {p : Parts} (h : ofText? token = some p) :
    token = p.text ∧ '.' ∉ p.payload ∧ '.' ∉ p.code := by
  obtain ⟨⟨signed, code⟩, hlast, h⟩ := Option.bind_eq_some_iff.1 h
  obtain ⟨⟨header, payload⟩, hmiddle, h⟩ := Option.bind_eq_some_iff.1 h
  cases h
  obtain ⟨rfl, hcode⟩ := eq_of_splitLast_eq_some hlast
  obtain ⟨rfl, hpayload⟩ := eq_of_splitLast_eq_some hmiddle
  exact ⟨rfl, hpayload, hcode⟩

/-- A text with three parts between dots has these parts. -/
theorem ofText?_of_splitOn {token header payload code : List Char}
    (h : token.splitOn '.' = [header, payload, code]) :
    ofText? token = some ⟨header, payload, code⟩ := by
  have htoken : token = (⟨header, payload, code⟩ : Parts).text := by
    have hjoin : ['.'].intercalate (token.splitOn '.') = token := List.intercalate_splitOn '.'
    rw [← hjoin, h]
    unfold text signed
    rw [List.intercalate_cons_cons, List.intercalate_cons_cons, List.intercalate_singleton]
    simp only [List.append_assoc, List.cons_append, List.nil_append]
  -- a dot in a part would make one part more
  have hsplit : header.splitOn '.' ++ (payload.splitOn '.' ++ code.splitOn '.')
      = [header, payload, code] := by
    rw [← h, htoken, ← List.splitOn_append_cons_self, ← List.splitOn_append_cons_self]
    unfold text signed
    rw [List.append_assoc, List.cons_append]
  have hlength := congrArg List.length hsplit
  rw [List.length_append, List.length_append, length_splitOn, length_splitOn, length_splitOn] at hlength
  simp only [List.length_cons, List.length_nil] at hlength
  have hpayload : '.' ∉ payload := List.count_eq_zero.1 (by omega)
  have hcode : '.' ∉ code := List.count_eq_zero.1 (by omega)
  rw [htoken]
  exact ofText?_text hpayload hcode

/-- Who names a way of signing is read from the letters of a header. -/
theorem algorithm?_eq_some {p : Parts} {alg : Algorithm} (h : p.algorithm? = some alg) :
    ∃ bytes, p.header = Base64Url.encode bytes
      ∧ Wire.decodeDocument Access.header (.ofBytes bytes) = .ok alg := by
  obtain ⟨bytes, hbytes, h⟩ := Option.bind_eq_some_iff.1 h
  refine ⟨bytes, Base64Url.eq_encode_of_decode hbytes, ?_⟩
  cases hdecode : Wire.decodeDocument Access.header (.ofBytes bytes) with
  | ok found =>
    rw [hdecode] at h
    exact congrArg _ (Option.some.inj h)
  | error e =>
    rw [hdecode] at h
    cases h

theorem algorithm?_of_decode {p : Parts} {bytes : List UInt8} {alg : Algorithm}
    (hheader : p.header = Base64Url.encode bytes)
    (h : Wire.decodeDocument Access.header (.ofBytes bytes) = .ok alg) : p.algorithm? = some alg := by
  unfold algorithm?
  simp only [bind, Option.bind]
  rw [hheader, Base64Url.decode_encode]
  simp only
  rw [h]
  rfl

end Parts

/-! ## §2. What the parts hold. -/

/-- A header names a way of signing: it is an object with the name under `alg`, once, or an array with
the name in the second place. -/
def Names (d : Document) (alg : Algorithm) : Prop :=
  d.rest = none
    ∧ ((∃ members n, d.root = .object members none ∧ nodesUnder "alg" members = [n] ∧ n.IsName alg.name)
      ∨ ∃ first n more, d.root = .array (first :: n :: more) none ∧ n.IsName alg.name)

theorem names_of_decode {d : Document} {alg : Algorithm}
    (h : Wire.decodeDocument header d = .ok alg) : Names d alg := by
  obtain ⟨found, hread, h⟩ := bind_eq_ok.1 h
  obtain ⟨_, hrest, h⟩ := bind_eq_ok.1 h
  cases h
  refine ⟨stopAt_eq_ok.1 hrest, ?_⟩
  rcases Codec.read_record_eq_ok (by decide) hread with
    ⟨members, t, hroot, hfound, hmade⟩ | ⟨items, t, hroot, hlisted, hmade⟩
  · obtain ⟨_, ⟨n, hunder, hn⟩ | ⟨_, habsent⟩, _⟩ := hfound
    · cases hmade
      exact .inl ⟨members, n, hroot, hunder, Codec.read_enumeration_eq_ok hn⟩
    · cases habsent
  · match items, hlisted with
    | [], hlisted => cases hlisted.1
    | [_], hlisted => cases hlisted.2.1
    | first :: n :: more, hlisted =>
      cases hmade
      exact .inr ⟨first, n, more, hroot, Codec.read_enumeration_eq_ok hlisted.2.1⟩

/-- The claims in the middle part are read from its letters. -/
theorem readClaims_eq_some {payload : List Char} {claims : Claims} {meant : Bool}
    (h : readClaims payload = some (claims, meant)) :
    ∃ bytes, payload = Base64Url.encode bytes ∧ (Document.ofBytes bytes).rest = none
      ∧ Wire.Bears (Document.ofBytes bytes).root claims
      ∧ readAudience (Document.ofBytes bytes).root = .ok meant := by
  have htoOption {α : Type} {x : Except Fault α} {a : α} (h : x.toOption = some a) : x = .ok a := by
    cases x with
    | ok b => exact congrArg _ (Option.some.inj h)
    | error e => cases h
  obtain ⟨bytes, hbytes, h⟩ := Option.bind_eq_some_iff.1 h
  obtain ⟨found, hclaims, h⟩ := Option.bind_eq_some_iff.1 h
  obtain ⟨others, haudience, h⟩ := Option.bind_eq_some_iff.1 h
  cases h
  obtain ⟨_, hread, hend⟩ := bind_eq_ok.1 (htoOption hclaims)
  obtain ⟨_, hrest, hend⟩ := bind_eq_ok.1 hend
  cases hend
  have haudience := htoOption haudience
  refine ⟨bytes, Base64Url.eq_encode_of_decode hbytes, stopAt_eq_ok.1 hrest, ?_, haudience⟩
  -- only an object says whom it is meant for
  cases hroot : (Document.ofBytes bytes).root with
  | object members ending =>
    rw [hroot] at hread
    exact Wire.bears_of_read_claims hread
  | _ =>
    rw [hroot] at haudience
    cases haudience

/-! ## §3. The right code. -/

namespace Authority

/-- What a token with the right code is made of. -/
theorem verified_eq_ok {a : Authority} {token : List Char} {claims : Claims} {meant : Bool}
    (h : a.verified token = .ok (claims, meant)) :
    ∃ p : Parts, token = p.text ∧ '.' ∉ p.payload ∧ p.algorithm? = some .hs256
      ∧ p.code = a.codeOf p.signed ∧ readClaims p.payload = some (claims, meant) := by
  unfold verified at h
  cases hparts : Parts.ofText? token with
  | none =>
    rw [hparts] at h
    cases h
  | some p =>
    obtain ⟨htoken, hpayload, _⟩ := Parts.text_of_ofText? hparts
    rw [hparts] at h
    simp only at h
    cases halg : p.algorithm? with
    | none =>
      rw [halg] at h
      cases h
    | some alg =>
      rw [halg] at h
      simp only at h
      by_cases hhs : alg = .hs256
      · rw [if_neg (not_not_intro hhs)] at h
        by_cases hcode : p.code = a.codeOf p.signed
        · rw [if_neg (not_not_intro hcode)] at h
          cases hclaims : readClaims p.payload with
          | none =>
            rw [hclaims] at h
            cases h
          | some found =>
            rw [hclaims] at h
            cases h
            exact ⟨p, htoken, hpayload, hhs ▸ halg, hcode, hclaims⟩
        · rw [if_pos hcode] at h
          cases h
      · rw [if_pos hhs] at h
        cases h

/-- A token whose header names another way of signing is not looked at any further. -/
theorem verified_of_other_algorithm (a : Authority) {token payload code : List Char}
    {bytes : List UInt8} {alg : Algorithm}
    (h : token.splitOn '.' = [Base64Url.encode bytes, payload, code])
    (hdecode : Wire.decodeDocument header (.ofBytes bytes) = .ok alg) (halg : alg ≠ .hs256) :
    a.verified token = .error .unsupportedAlgorithm := by
  unfold verified
  rw [Parts.ofText?_of_splitOn h]
  simp only
  rw [Parts.algorithm?_of_decode rfl hdecode]
  simp only
  rw [if_pos halg]
  rfl

/-! ## §4. Tokens that are made. -/

/-- The header that is written names the way of signing. -/
theorem decode_issuedHeader :
    Wire.decodeDocument header (.ofBytes (Utf8.write issuedHeader.toList)) = .ok .hs256 := by
  decide +kernel

/-- What is written for claims names nobody they are meant for. -/
theorem readAudience_claims (claims : Claims) :
    readAudience (.ofValue (Wire.claims.write claims)) = .ok false := by
  rfl

/-- The claims in a part that was written for them. -/
theorem readClaims_part (claims : Claims) :
    readClaims (part (Wire.encode Wire.claims claims)) = some (claims, false) := by
  have hdocument : Document.ofBytes (Utf8.write (Wire.encode Wire.claims claims).toList)
      = ⟨.ofValue (Wire.claims.write claims), none⟩ := by
    unfold Document.ofBytes
    rw [Utf8.read_write]
    have hread := Document.ofText_of_renders .nil (renders_write (Wire.claims.write claims)) .nil
    rw [List.nil_append, List.append_nil] at hread
    exact hread
  have hclaims : Wire.decodeDocument Wire.claims ⟨.ofValue (Wire.claims.write claims), none⟩
      = .ok claims := by
    unfold Wire.decodeDocument
    simp only [bind, Except.bind]
    rw [Wire.lawful_claims claims _ (.refl _)]
    rfl
  unfold readClaims part
  rw [Base64Url.decode_encode]
  simp only [bind, Option.bind]
  rw [hdocument, hclaims]
  simp only [Except.toOption]
  rw [readAudience_claims]

theorem dot_not_mem_part (text : String) : '.' ∉ part text := by
  unfold part
  exact Base64Url.dot_not_mem_encode _

theorem dot_not_mem_codeOf (a : Authority) (signed : List Char) : '.' ∉ a.codeOf signed := by
  unfold codeOf
  exact Base64Url.dot_not_mem_encode _

/-- The parts of the token with some claims. -/
def partsOf (a : Authority) (claims : Claims) : Parts :=
  let signed : Parts := ⟨part issuedHeader, part (Wire.encode Wire.claims claims), []⟩
  { signed with code := a.codeOf signed.signed }

theorem header_partsOf (a : Authority) (claims : Claims) :
    (a.partsOf claims).header = Base64Url.encode (Utf8.write issuedHeader.toList) := by
  simp only [partsOf, part]

theorem payload_partsOf (a : Authority) (claims : Claims) :
    (a.partsOf claims).payload = part (Wire.encode Wire.claims claims) := by
  simp only [partsOf]

theorem code_partsOf (a : Authority) (claims : Claims) :
    (a.partsOf claims).code = a.codeOf (a.partsOf claims).signed := by
  simp only [partsOf, Parts.signed]

theorem sign_eq_text (a : Authority) (claims : Claims) : a.sign claims = (a.partsOf claims).text := by
  simp only [sign, partsOf, Parts.text, Parts.signed]

/-- A token with the right code bears the claims in its middle part. -/
theorem verified_of_parts {a : Authority} {token : List Char} {p : Parts} {found : Claims × Bool}
    (hparts : Parts.ofText? token = some p) (halg : p.algorithm? = some .hs256)
    (hcode : p.code = a.codeOf p.signed) (hclaims : readClaims p.payload = some found) :
    a.verified token = .ok found := by
  unfold verified
  rw [hparts]
  simp only
  rw [halg]
  simp only
  rw [if_neg (not_not_intro rfl), if_neg (not_not_intro hcode), hclaims]
  rfl

/-- A token that is made of claims has the right code and bears them. -/
theorem verified_sign (a : Authority) (claims : Claims) :
    a.verified (a.sign claims) = .ok (claims, false) := by
  have halg : (a.partsOf claims).algorithm? = some .hs256 :=
    Parts.algorithm?_of_decode (a.header_partsOf claims) decode_issuedHeader
  have hpayload : '.' ∉ (a.partsOf claims).payload := by
    rw [payload_partsOf]
    exact dot_not_mem_part _
  have hcode : '.' ∉ (a.partsOf claims).code := by
    rw [code_partsOf]
    exact a.dot_not_mem_codeOf _
  have hparts : Parts.ofText? (a.partsOf claims).text = some (a.partsOf claims) :=
    Parts.ofText?_text hpayload hcode
  have hclaims : readClaims (a.partsOf claims).payload = some (claims, false) := by
    rw [payload_partsOf]
    exact readClaims_part claims
  rw [sign_eq_text]
  exact verified_of_parts hparts halg (a.code_partsOf claims) hclaims

/-- What decides about a token that is made of claims: its times, and whom it comes from. -/
theorem validate_sign (a : Authority) (claims : Claims) (now : Int64) :
    a.validate (a.sign claims) now
      = (do checkTimes claims now; a.checkSource claims false; pure claims) := by
  unfold validate
  rw [verified_sign]
  rfl

theorem refresh_sign (a : Authority) (claims : Claims) (now : Int64) :
    a.refresh (a.sign claims) now
      = (do a.checkSource claims false; pure (a.issue claims.identity now)) := by
  unfold refresh
  rw [verified_sign]
  rfl

/-! ## §5. Secrets. -/

/-- The authority that knows a secret, for any way of making codes with it. -/
def withMac (mac : List UInt8 → List UInt8 → List UInt8) (secret : String) (lifetime : Time.Duration)
    (issuer : String) : Authority :=
  ⟨issuer, lifetimeSeconds lifetime, mac (Utf8.write secret.toList)⟩

theorem ofSecret_eq_withMac : ofSecret = withMac Mac.code := rfl

end Authority

end UserDirectory.Access
