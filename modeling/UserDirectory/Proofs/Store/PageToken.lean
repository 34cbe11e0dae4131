import UserDirectory.Proofs.Text.Decimal
import UserDirectory.Proofs.Text.Utf8
import UserDirectory.Store.Backend
/-!
# What is a page token

A text is a page token if it is written as one: the letters of `after:` and of the digits of a number below
2^32.  Zeros may stand in front of the digits, and a plus sign before them; nothing else is put up with.

Main statements:
  * `after?_eq_some_iff`: which texts are tokens, and after whom they go on;
  * `page_tokens_exact`: what a listing makes of a text that is sent as a token.
-/

namespace UserDirectory.Store

open UserDirectory.Text
open UserDirectory.Time (Instant)

namespace PageToken

/-- A text is a token for going on after the user with a number. -/
def LeadsTo (token : String) (id : UInt32) : Prop :=
  ∃ sign digits, (sign = [] ∨ sign = ['+']) ∧ Decimal.IsNumeral digits id.toNat
    ∧ token.toList = Base64Url.encode (Utf8.write ("after:".toList ++ (sign ++ digits)))

variable {token : String} {id : UInt32} {ms cs rest : List Char}

theorem afterMark_eq_some_iff : afterMark ms cs = some rest ↔ cs = ms ++ rest := by
  induction ms generalizing cs with
  | nil => exact Option.some_inj
  | cons m ms ih =>
    cases cs with
    | nil => exact iff_of_false (by rintro ⟨⟩) (by rintro ⟨⟩)
    | cons c cs =>
      rw [afterMark, List.cons_append, List.cons.injEq]
      split
      · rename_i hc
        rw [ih]
        exact (and_iff_right hc).symm
      · rename_i hc
        exact iff_of_false (by rintro ⟨⟩) fun h => hc h.1

theorem decode_eq_some_iff {bs : List UInt8} :
    Base64Url.decode cs = some bs ↔ cs = Base64Url.encode bs :=
  ⟨Base64Url.eq_encode_of_decode, fun h => h ▸ Base64Url.decode_encode bs⟩

/-- The number that is read is that of the user, and not one that only agrees with it modulo 2^32. -/
theorem readId_iff :
    (∃ n, (Decimal.read UInt32.size cs).toOption = some n ∧ UInt32.ofNat n = id)
      ↔ ∃ sign digits, (sign = [] ∨ sign = ['+']) ∧ Decimal.IsNumeral digits id.toNat
          ∧ cs = sign ++ digits := by
  have hread : ∀ n, (Decimal.read UInt32.size cs).toOption = some n
      ↔ Decimal.read UInt32.size cs = .ok n := by
    intro n
    cases Decimal.read UInt32.size cs with
    | error e => exact iff_of_false (by rintro ⟨⟩) (by rintro ⟨⟩)
    | ok m => exact ⟨fun h => congrArg _ (Option.some.inj h), fun h => congrArg _ (Except.ok.inj h)⟩
  constructor
  · rintro ⟨n, hn, rfl⟩
    obtain ⟨digits, hcs, hdigits, hlt⟩ := (Decimal.read_eq_ok_iff (by decide)).1 ((hread n).1 hn)
    have hsame : (UInt32.ofNat n).toNat = n := UInt32.toNat_ofNat_of_lt hlt
    rw [← hsame] at hdigits
    rcases hcs with rfl | rfl
    · exact ⟨[], _, .inl rfl, hdigits, rfl⟩
    · exact ⟨['+'], digits, .inr rfl, hdigits, rfl⟩
  · rintro ⟨sign, digits, hsign, hdigits, rfl⟩
    refine ⟨id.toNat, (hread _).2 ?_, UInt32.ofNat_toNat⟩
    refine (Decimal.read_eq_ok_iff (by decide)).2 ⟨digits, ?_, hdigits, id.toNat_lt⟩
    rcases hsign with rfl | rfl
    · exact .inl rfl
    · exact .inr rfl

/-- A text leads on after a user if it is a token for this user. -/
theorem after?_eq_some_iff : after? token = some id ↔ LeadsTo token id := by
  unfold after? LeadsTo
  simp only [bind, Option.bind_eq_some_iff, Option.some.injEq, decode_eq_some_iff,
    Utf8.unstrayed?_read_eq_some_iff, afterMark_eq_some_iff, readId_iff]
  constructor
  · rintro ⟨_, hbytes, _, rfl, _, rfl, sign, digits, hsign, hdigits, rfl⟩
    exact ⟨sign, digits, hsign, hdigits, hbytes⟩
  · rintro ⟨sign, digits, hsign, hdigits, htoken⟩
    exact ⟨_, htoken, _, rfl, _, rfl, sign, digits, hsign, hdigits, rfl⟩

/-- The token for a user is that of no other. -/
theorem ofId_injective : Function.Injective ofId := fun i j h => by
  have hi := after?_ofId i
  rw [h, after?_ofId] at hi
  exact (Option.some.inj hi).symm

end PageToken

variable {f : ListFilter} {token : String}

namespace ListFilter

/-- What is wrong with a text that is no token. -/
def badToken : StoreError := .invalidArgument "invalid page token"

theorem cursor_of_after?_eq_some {id : UInt32} (hf : f.pageToken = some token)
    (h : PageToken.after? token = some id) : f.cursor = .ok (some id) := by
  unfold cursor
  rw [hf]
  simp only [h]

theorem cursor_of_after?_eq_none (hf : f.pageToken = some token) (h : PageToken.after? token = none) :
    f.cursor = .error badToken := by
  unfold cursor
  rw [hf]
  simp only [h]
  rfl

/-- A listing starts after a user if what is sent as a token is one for this user. -/
theorem cursor_eq_ok_iff (hf : f.pageToken = some token) (id : UInt32) :
    f.cursor = .ok (some id) ↔ PageToken.LeadsTo token id := by
  rw [← PageToken.after?_eq_some_iff]
  refine ⟨fun h => ?_, cursor_of_after?_eq_some hf⟩
  cases hafter : PageToken.after? token with
  | none =>
    rw [cursor_of_after?_eq_none hf hafter] at h
    cases h
  | some id' =>
    rw [cursor_of_after?_eq_some hf hafter] at h
    cases h
    rfl

end ListFilter

/-- A listing whose cursor cannot be found fails at once: whatever a store holds, it is as before, and
nothing has been asked of a database. -/
theorem Engine.perform_list_of_cursor_eq_error {e : StoreError} (h : f.cursor = .error e) (engine : Engine)
    (now : Instant) : engine.perform now (.list f) = (.error e, engine, []) := by
  cases engine with
  | memory t =>
    have hselect : t.select f = .error e := by
      unfold Table.select
      rw [h]
      rfl
    simp only [Engine.perform, Table.perform, hselect]
    rfl
  | relational server history =>
    have hquery : Relational.queryOf now (.list f) = .error e := by
      simp only [Relational.queryOf, h]
      rfl
    simp only [Engine.perform, hquery]

/-- A page token leads on after the user it is for, and after no other; every other text is refused, before
a store is looked at. -/
theorem page_tokens_exact :
    (∀ (f : ListFilter) id, { f with pageToken := some (PageToken.ofId id) }.cursor = .ok (some id))
    ∧ (∀ i j, PageToken.ofId i = PageToken.ofId j → i = j)
    ∧ ∀ (f : ListFilter) token, f.pageToken = some token →
      (∀ id, f.cursor = .ok (some id) ↔ PageToken.LeadsTo token id)
      ∧ ((∀ id, ¬ PageToken.LeadsTo token id) →
        f.cursor = .error (.invalidArgument "invalid page token")
        ∧ ∀ (engine : Engine) now, engine.perform now (.list f)
            = (.error (.invalidArgument "invalid page token"), engine, [])) := by
  refine ⟨fun f id => ?_, fun i j h => PageToken.ofId_injective h, fun f token hf => ⟨?_, fun hno => ?_⟩⟩
  · exact ListFilter.cursor_of_after?_eq_some rfl (PageToken.after?_ofId id)
  · exact ListFilter.cursor_eq_ok_iff hf
  · have hafter : PageToken.after? token = none :=
      Option.eq_none_iff_forall_ne_some.2 fun id h => hno id (PageToken.after?_eq_some_iff.1 h)
    have hcursor := ListFilter.cursor_of_after?_eq_none hf hafter
    exact ⟨hcursor, Engine.perform_list_of_cursor_eq_error hcursor⟩

/-- A filter with a text for a token. -/
def fromToken (token : String) : ListFilter := { ListFilter.everyone with pageToken := some token }

/-- A plus sign and a zero are put up with.  But the letters may not be filled up, nor may the last one have
bits that belong to no byte, and a number of 2^32 is not one of zero. -/
theorem page_tokens_exact_refused :
    (fromToken "YWZ0ZXI6KzA3").cursor = .ok (some 7)
    ∧ ∀ token ∈ ["YWZ0ZXI6Nw==", "YWZ0ZXI6Nx", "YWZ0ZXI6NDI5NDk2NzI5Ng"],
      (∀ id, ¬ PageToken.LeadsTo token id)
      ∧ (Engine.relational .unreachable []).perform .epoch (.list (fromToken token))
        = (.error (.invalidArgument "invalid page token"), .relational .unreachable [], []) := by
  have hexact := page_tokens_exact.2.2
  refine ⟨((hexact (fromToken "YWZ0ZXI6KzA3") _ rfl).1 7).2 ?_, fun token htoken => ?_⟩
  · exact ⟨['+'], ['0', '7'], .inr rfl, ⟨List.cons_ne_nil _ _, List.all_eq_true.1 rfl, rfl⟩, by decide +kernel⟩
  · obtain ⟨hleads, hrefused⟩ := hexact (fromToken token) token rfl
    have hcursor : ∀ id, (fromToken token).cursor ≠ .ok (some id) := by
      have hnone : PageToken.after? token = none := by
        simp only [List.mem_cons, List.not_mem_nil, or_false] at htoken
        rcases htoken with rfl | rfl | rfl <;> decide +kernel
      intro id h
      rw [ListFilter.cursor_of_after?_eq_none rfl hnone] at h
      cases h
    have hno : ∀ id, ¬ PageToken.LeadsTo token id := fun id h => hcursor id ((hleads id).2 h)
    exact ⟨hno, (hrefused hno).2 _ .epoch⟩

end UserDirectory.Store
