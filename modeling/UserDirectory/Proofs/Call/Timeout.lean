import UserDirectory.Call.Context
import UserDirectory.Proofs.Text.Decimal
import UserDirectory.Proofs.Text.Utf8
/-!
# Which timeouts are heeded

A text asks for a timeout with one to eight digits and a unit, and gets just the time that they state.  The
reader takes the last byte for the unit, so a text of fitting size that ends in a longer character is torn;
but the metadata hold no such text, since what can be read in them has one byte for each character.

Main statements:
  * `readTimeout_eq_states_iff` and `readTimeout_eq_torn_iff`: what is made of a text;
  * `readTimeout_ne_torn`: no value that can be read in metadata is torn;
  * `timeouts_exact`: the timeout that a call gets from its metadata.
-/

namespace UserDirectory.Time

/-- The length of a number of nanoseconds has just so many. -/
theorem Duration.totalNanos_of_ofNanos? {n : Nat} {d : Duration} (h : Duration.ofNanos? n = some d) :
    d.totalNanos = n := by
  unfold Duration.ofNanos? at h
  split at h
  · cases h
    exact Nat.div_add_mod' n _
  · cases h

/-- Lengths of time are told apart by their nanoseconds. -/
theorem Duration.totalNanos_inj {d d' : Duration} (h : d.totalNanos = d'.totalNanos) : d = d' := by
  have hd := ofNanos?_totalNanos d
  rw [h, ofNanos?_totalNanos] at hd
  exact (Option.some.inj hd).symm

end UserDirectory.Time

namespace UserDirectory.Call

open UserDirectory.Text
open UserDirectory.Time (Duration)

/-! ## §1. Bytes. -/

variable {cs digits text : List Char} {bytes : List UInt8} {c unit : Char} {d : Duration} {n nanos total : Nat}

theorem byteCount_eq (cs : List Char) : byteCount cs = (Utf8.write cs).length := by
  have hfrom : ∀ m, cs.foldl (fun n c => n + c.utf8Size) m = m + (Utf8.write cs).length := by
    induction cs with
    | nil => exact fun m => rfl
    | cons c cs ih =>
      intro m
      have hcons : Utf8.write (c :: cs) = String.utf8EncodeChar c ++ Utf8.write cs := List.flatMap_cons
      rw [List.foldl_cons, ih, hcons, List.length_append, String.length_utf8EncodeChar, Nat.add_assoc]
  exact (hfrom 0).trans (Nat.zero_add _)

theorem byteCount_append (cs ds : List Char) : byteCount (cs ++ ds) = byteCount cs + byteCount ds := by
  rw [byteCount_eq, byteCount_eq, byteCount_eq, ← List.length_append]
  exact congrArg List.length List.flatMap_append

theorem byteCount_singleton (c : Char) : byteCount [c] = c.utf8Size := Nat.zero_add _

/-- A text of characters of one byte has as many bytes as characters. -/
theorem byteCount_of_utf8Size (h : ∀ c ∈ cs, c.utf8Size = 1) : byteCount cs = cs.length := by
  induction cs with
  | nil => rfl
  | cons c cs ih =>
    obtain ⟨hc, hcs⟩ := List.forall_mem_cons.1 h
    rw [← List.singleton_append, byteCount_append, byteCount_singleton, hc, ih hcs,
      List.length_append, List.length_singleton]

theorem utf8Size_of_lt (h : c.toNat < 128) : c.utf8Size = 1 := by
  have hle : c.val ≤ 127 := UInt32.le_iff_toNat_le.2 (Nat.le_of_lt_succ h)
  exact Char.utf8Size_eq_one_iff.2 hle

theorem utf8Size_of_isDigit (h : c.isDigit = true) : c.utf8Size = 1 :=
  utf8Size_of_lt (Nat.lt_of_le_of_lt (Char.isDigit_iff_toNat.1 h).2 (by decide))

/-! ## §2. Texts. -/

/-- The units of time, and how many nanoseconds each has. -/
def timeoutUnits : List (Char × Nat) :=
  [('H', 3_600_000_000_000), ('M', 60_000_000_000), ('S', 1_000_000_000), ('m', 1_000_000), ('u', 1_000),
   ('n', 1)]

/-- A text states a time in nanoseconds: by one to eight digits and a unit. -/
inductive StatesNanos : List Char → Nat → Prop
  | intro {digits : List Char} {unit : Char} {n nanos : Nat} (hshort : digits.length ≤ 8)
      (hdigits : Decimal.IsNumeral digits n) (hunit : (unit, nanos) ∈ timeoutUnits) :
      StatesNanos (digits ++ [unit]) (n * nanos)

theorem unitNanos?_eq_some_iff : unitNanos? unit = some nanos ↔ (unit, nanos) ∈ timeoutUnits := by
  unfold unitNanos? timeoutUnits
  simp only [List.mem_cons, Prod.mk.injEq, List.not_mem_nil, or_false]
  constructor
  · intro h
    repeat' split at h
    all_goals simp_all
  · rintro (⟨rfl, rfl⟩ | ⟨rfl, rfl⟩ | ⟨rfl, rfl⟩ | ⟨rfl, rfl⟩ | ⟨rfl, rfl⟩ | ⟨rfl, rfl⟩) <;> rfl

/-- An hour is the longest unit, and each is the character of one byte. -/
theorem of_mem_timeoutUnits (h : (unit, nanos) ∈ timeoutUnits) :
    nanos ≤ 3_600_000_000_000 ∧ unit.utf8Size = 1 := by
  have hall : ∀ p ∈ timeoutUnits, p.2 ≤ 3_600_000_000_000 ∧ p.1.utf8Size = 1 := by decide
  exact hall _ h

/-- What a text states stays far below the longest time there is. -/
theorem StatesNanos.lt (h : StatesNanos cs total) : total < 100_000_000 * 3_600_000_000_000 := by
  obtain ⟨hshort, hdigits, hunit⟩ := h
  rename_i digits unit n nanos
  have hn : n < 100_000_000 := Nat.lt_of_lt_of_le hdigits.lt (Nat.pow_le_pow_right (by decide) hshort)
  exact Nat.mul_lt_mul_of_lt_of_le hn (of_mem_timeoutUnits hunit).1 (by decide)

theorem timeoutOf_ne_torn (digits : List Char) (unit : Char) : timeoutOf digits unit ≠ .torn := by
  unfold timeoutOf
  repeat' split
  all_goals rintro ⟨⟩

/-- A time that is stated is the product of a number and a unit. -/
theorem timeoutOf_eq_states (h : timeoutOf digits unit = .states d) :
    ∃ n nanos, Decimal.IsNumeral digits n ∧ (unit, nanos) ∈ timeoutUnits ∧ d.totalNanos = n * nanos := by
  unfold timeoutOf at h
  split at h
  · split at h
    · rename_i n nanos hn hunit
      split at h
      · rename_i d' hd
        cases h
        have hnumeral := ((Decimal.readDigits_eq_ok_iff (by decide)).1 hn).1
        exact ⟨n, nanos, hnumeral, unitNanos?_eq_some_iff.1 hunit, Duration.totalNanos_of_ofNanos? hd⟩
      · cases h
    · cases h
  · cases h

/-- Eight digits and a unit are never too much for a length of time. -/
theorem timeoutOf_of_isNumeral (hshort : digits.length ≤ 8) (hdigits : Decimal.IsNumeral digits n)
    (hunit : (unit, nanos) ∈ timeoutUnits) :
    ∃ d, timeoutOf digits unit = .states d ∧ d.totalNanos = n * nanos := by
  have htotal := (StatesNanos.intro hshort hdigits hunit).lt
  have hn : n < UInt64.size :=
    Nat.lt_of_lt_of_le hdigits.lt (Nat.le_trans (Nat.pow_le_pow_right (by decide) hshort) (by decide))
  obtain ⟨d, hd⟩ : ∃ d, Duration.ofNanos? (n * nanos) = some d := by
    unfold Duration.ofNanos?
    rw [dif_pos (by simp only [UInt64.size]; omega)]
    exact ⟨_, rfl⟩
  refine ⟨d, ?_, Duration.totalNanos_of_ofNanos? hd⟩
  unfold timeoutOf
  rw [if_pos (List.all_eq_true.2 hdigits.digits), (Decimal.readDigits_eq_ok_iff (by decide)).2 ⟨hdigits, hn⟩,
    unitNanos?_eq_some_iff.2 hunit]
  simp only [hd]

/-- A text of two to nine bytes that ends in a character of one byte is digits and a unit. -/
theorem readTimeout_append (hsize : 2 ≤ byteCount (digits ++ [unit]) ∧ byteCount (digits ++ [unit]) ≤ 9)
    (hunit : unit.utf8Size = 1) : readTimeout (digits ++ [unit]) = timeoutOf digits unit := by
  unfold readTimeout
  rw [if_pos hsize, List.getLast?_concat, List.dropLast_concat]
  simp only [hunit, if_true]

/-- All that can be made of a text. -/
theorem readTimeout_cases (cs : List Char) :
    (¬ (2 ≤ byteCount cs ∧ byteCount cs ≤ 9) ∧ readTimeout cs = .refused)
    ∨ ∃ digits last, cs = digits ++ [last] ∧ 2 ≤ byteCount cs ∧ byteCount cs ≤ 9
      ∧ ((last.utf8Size = 1 ∧ readTimeout cs = timeoutOf digits last)
        ∨ (1 < last.utf8Size ∧ readTimeout cs = .torn)) := by
  by_cases hsize : 2 ≤ byteCount cs ∧ byteCount cs ≤ 9
  · obtain rfl | ⟨digits, last, rfl⟩ := List.eq_nil_or_concat cs
    · exact absurd hsize.1 (by decide)
    · rw [List.concat_eq_append] at *
      refine .inr ⟨digits, last, rfl, hsize.1, hsize.2, ?_⟩
      by_cases hone : last.utf8Size = 1
      · exact .inl ⟨hone, readTimeout_append hsize hone⟩
      · refine .inr ⟨Nat.lt_of_le_of_ne last.utf8Size_pos (Ne.symm hone), ?_⟩
        unfold readTimeout
        rw [if_pos hsize, List.getLast?_concat]
        simp only [hone, if_false]
  · refine .inl ⟨hsize, ?_⟩
    unfold readTimeout
    rw [if_neg hsize]

/-- What a text states is read. -/
theorem StatesNanos.exists_states (h : StatesNanos cs total) :
    ∃ d, readTimeout cs = .states d ∧ d.totalNanos = total := by
  obtain ⟨hshort, hdigits, hunit⟩ := h
  rename_i digits unit n nanos
  have hone := (of_mem_timeoutUnits hunit).2
  have hbytes : byteCount (digits ++ [unit]) = digits.length + 1 := by
    rw [byteCount_append, byteCount_singleton, hone,
      byteCount_of_utf8Size fun c hc => utf8Size_of_isDigit (hdigits.digits c hc)]
  have hsome : 0 < digits.length := List.length_pos_iff.2 hdigits.ne_nil
  rw [readTimeout_append (by omega) hone]
  exact timeoutOf_of_isNumeral hshort hdigits hunit

/-- A text is read as the time that it states. -/
theorem readTimeout_eq_states_iff : readTimeout cs = .states d ↔ StatesNanos cs d.totalNanos := by
  constructor
  · intro h
    obtain ⟨_, hrefused⟩ | ⟨digits, last, rfl, _, hsize, ⟨hone, hread⟩ | ⟨_, htorn⟩⟩ := readTimeout_cases cs
    · cases hrefused.symm.trans h
    · obtain ⟨n, nanos, hdigits, hunit, htotal⟩ := timeoutOf_eq_states (hread.symm.trans h)
      rw [byteCount_append, byteCount_singleton, hone,
        byteCount_of_utf8Size fun c hc => utf8Size_of_isDigit (hdigits.digits c hc)] at hsize
      rw [htotal]
      exact .intro (Nat.le_of_succ_le_succ hsize) hdigits hunit
    · cases htorn.symm.trans h
  · intro h
    obtain ⟨d', hd', htotal⟩ := h.exists_states
    rw [hd', Duration.totalNanos_inj htotal]

/-- A text has two to nine bytes, and the last of them is only a part of a character. -/
def EndsTorn (cs : List Char) : Prop :=
  2 ≤ (Utf8.write cs).length ∧ (Utf8.write cs).length ≤ 9
    ∧ ∃ last, cs.getLast? = some last ∧ 1 < (String.utf8EncodeChar last).length

/-- Only such a text is torn. -/
theorem readTimeout_eq_torn_iff : readTimeout cs = .torn ↔ EndsTorn cs := by
  unfold EndsTorn
  rw [← byteCount_eq]
  simp only [String.length_utf8EncodeChar]
  obtain ⟨hsize, hrefused⟩ | ⟨digits, last, rfl, hmin, hmax, hlast⟩ := readTimeout_cases cs
  · rw [hrefused]
    exact iff_of_false (by rintro ⟨⟩) fun ⟨hmin, hmax, _⟩ => hsize ⟨hmin, hmax⟩
  · rw [List.getLast?_concat]
    obtain ⟨hone, hread⟩ | ⟨hmore, htorn⟩ := hlast
    · rw [hread]
      refine iff_of_false (timeoutOf_ne_torn _ _) ?_
      rintro ⟨_, _, _, hlast, hmore⟩
      cases hlast
      omega
    · exact iff_of_true htorn ⟨hmin, hmax, last, rfl, hmore⟩

/-- Whatever is left is refused. -/
theorem readTimeout_eq_refused (hstates : ∀ total, ¬ StatesNanos cs total) (htorn : ¬ EndsTorn cs) :
    readTimeout cs = .refused := by
  cases h : readTimeout cs with
  | states d => exact absurd (readTimeout_eq_states_iff.1 h) (hstates _)
  | refused => rfl
  | torn => exact absurd (readTimeout_eq_torn_iff.1 h) htorn

/-! ## §3. Metadata. -/

theorem toNat_lt_of_isReadable {b : UInt8} (h : isReadable b = true) : b.toNat < 128 := by
  unfold isReadable at h
  rw [Bool.or_eq_true, Bool.and_eq_true, decide_eq_true_eq, decide_eq_true_eq, decide_eq_true_eq] at h
  obtain ⟨_, hle⟩ | rfl := h
  · exact Nat.lt_of_le_of_lt (UInt8.le_iff_toNat_le.1 hle) (by decide)
  · decide

/-- What can be read in metadata has one byte for each character. -/
theorem utf8Size_of_readValue (h : readValue bytes = some text) (hc : c ∈ text) : c.utf8Size = 1 := by
  unfold readValue at h
  split at h
  · rename_i hall
    cases h
    obtain ⟨b, hb, rfl⟩ := List.mem_map.1 hc
    have hsmall := toNat_lt_of_isReadable (List.all_eq_true.1 hall b hb)
    refine utf8Size_of_lt ?_
    rwa [Utf8.toNat_charOfNat (.inl (by omega))]
  · cases h

/-- So no value that can be read is torn. -/
theorem readTimeout_ne_torn (h : readValue bytes = some text) : readTimeout text ≠ .torn := by
  rw [Ne, readTimeout_eq_torn_iff]
  rintro ⟨_, _, last, hlast, hmore⟩
  rw [String.length_utf8EncodeChar, utf8Size_of_readValue h (List.mem_of_getLast? hlast)] at hmore
  exact absurd hmore (by decide)

/-- The value that came first under the name of the timeout can be read, and states a time. -/
def Metadata.AsksFor (m : Metadata) (d : Duration) : Prop :=
  ∃ before bytes after text, m.headers = before ++ ("grpc-timeout", bytes) :: after
    ∧ (∀ h ∈ before, h.1 ≠ "grpc-timeout") ∧ readValue bytes = some text ∧ StatesNanos text d.totalNanos

/-- The value that came first under a name. -/
theorem Metadata.get?_eq_some_iff {m : Metadata} {name : String} :
    m.get? name = some bytes ↔ ∃ before after, m.headers = before ++ (name, bytes) :: after
      ∧ ∀ h ∈ before, h.1 ≠ name := by
  unfold Metadata.get?
  rw [Option.map_eq_some_iff]
  constructor
  · rintro ⟨⟨found, value⟩, hfind, rfl⟩
    obtain ⟨hname, before, after, hheaders, hbefore⟩ := List.find?_eq_some_iff_append.1 hfind
    obtain rfl := of_decide_eq_true hname
    exact ⟨before, after, hheaders, fun h hh => by simpa using hbefore h hh⟩
  · rintro ⟨before, after, hheaders, hbefore⟩
    refine ⟨(name, bytes), List.find?_eq_some_iff_append.2 ⟨decide_eq_true rfl, before, after, hheaders, ?_⟩, rfl⟩
    exact fun h hh => by simpa using hbefore h hh

/-- A timeout is heeded if the metadata ask for it. -/
theorem Metadata.timeout?_eq_some_iff {m : Metadata} : m.timeout? = some d ↔ m.AsksFor d := by
  unfold Metadata.timeout? Metadata.AsksFor
  simp only [bind, Option.bind_eq_some_iff, Metadata.get?_eq_some_iff, ← readTimeout_eq_states_iff]
  constructor
  · rintro ⟨bytes, ⟨before, after, hheaders, hbefore⟩, text, htext, hd⟩
    refine ⟨before, bytes, after, text, hheaders, hbefore, htext, ?_⟩
    split at hd
    · rename_i d' hread
      rw [hread, Option.some.inj hd]
    · cases hd
  · rintro ⟨before, bytes, after, text, hheaders, hbefore, htext, hread⟩
    refine ⟨bytes, ⟨before, after, hheaders, hbefore⟩, text, htext, ?_⟩
    rw [hread]

/-! ## §4. Calls. -/

/-- The metadata of a call ask for a timeout. -/
def Context.AsksFor (context : Context) (d : Duration) : Prop :=
  ∃ m, context.metadata = some m ∧ m.AsksFor d

variable {context : Context}

/-- A timeout that can be asked for does not lie beyond the end of the clock. -/
theorem Context.AsksFor.seconds_lt (h : context.AsksFor d) : d.seconds < Context.endOfClock := by
  obtain ⟨_, _, _, _, _, text, _, _, _, hstates⟩ := h
  have hlt := hstates.lt
  unfold Duration.totalNanos at hlt
  unfold Context.endOfClock
  omega

theorem Context.bind_timeout?_eq_some_iff :
    context.metadata.bind Metadata.timeout? = some d ↔ context.AsksFor d := by
  rw [Option.bind_eq_some_iff]
  simp only [Metadata.timeout?_eq_some_iff]
  rfl

/-- A call gets the timeout that its metadata ask for. -/
theorem Context.withMetadataTimeout_of_asksFor (h : context.AsksFor d) :
    context.withMetadataTimeout = { context with timeout := some d } := by
  unfold Context.withMetadataTimeout
  simp only [bind_timeout?_eq_some_iff.2 h]
  unfold Context.withTimeout
  rw [if_pos h.seconds_lt]

/-- A call whose metadata ask for none is left as it is. -/
theorem Context.withMetadataTimeout_of_not_asksFor (h : ∀ d, ¬ context.AsksFor d) :
    context.withMetadataTimeout = context := by
  have hnone : context.metadata.bind Metadata.timeout? = none :=
    Option.eq_none_iff_forall_ne_some.2 fun d hd => h d (bind_timeout?_eq_some_iff.1 hd)
  unfold Context.withMetadataTimeout
  simp only [hnone]

/-- A call that had no timeout has the one that its metadata ask for, and no other. -/
theorem Context.timeout_withMetadataTimeout_iff (hnone : context.timeout = none) :
    context.withMetadataTimeout.timeout = some d ↔ context.AsksFor d := by
  rw [← bind_timeout?_eq_some_iff]
  cases hfound : context.metadata.bind Metadata.timeout? with
  | none =>
    have hno : ∀ d, ¬ context.AsksFor d := fun d hd =>
      nomatch hfound.symm.trans (bind_timeout?_eq_some_iff.2 hd)
    rw [withMetadataTimeout_of_not_asksFor hno, hnone]
  | some d' => rw [withMetadataTimeout_of_asksFor (bind_timeout?_eq_some_iff.1 hfound)]

/-- A text is read as just the time that it states, is torn if it ends within a character, and else is
refused.  No value of metadata that can be read is torn, so a call always gets what its metadata ask for: the
time that the first value under the name states, or no timeout. -/
theorem timeouts_exact :
    (∀ cs : List Char,
      (∀ d, readTimeout cs = .states d ↔ StatesNanos cs d.totalNanos)
      ∧ (∀ total, StatesNanos cs total → ∃ d, readTimeout cs = .states d ∧ d.totalNanos = total)
      ∧ (readTimeout cs = .torn ↔ EndsTorn cs)
      ∧ ((∀ total, ¬ StatesNanos cs total) → ¬ EndsTorn cs → readTimeout cs = .refused))
    ∧ (∀ bytes text, readValue bytes = some text → readTimeout text ≠ .torn)
    ∧ (∀ context : Context,
      (∀ d, context.AsksFor d → context.withMetadataTimeout = { context with timeout := some d })
      ∧ ((∀ d, ¬ context.AsksFor d) → context.withMetadataTimeout = context))
    ∧ ∀ (method : String) (kind : CallKind) (metadata : Option Metadata) (start : Nat),
      let fresh := Context.start method kind metadata
      (∀ d, fresh.withMetadataTimeout.timeout = some d ↔ fresh.AsksFor d)
      ∧ (∀ d, fresh.AsksFor d → fresh.withMetadataTimeout.deadline start = some (start + d.millisUp))
      ∧ ((∀ d, ¬ fresh.AsksFor d) → fresh.withMetadataTimeout.deadline start = none) := by
  refine ⟨fun cs => ⟨fun d => readTimeout_eq_states_iff, fun total h => h.exists_states,
      readTimeout_eq_torn_iff, readTimeout_eq_refused⟩,
    fun bytes text h => readTimeout_ne_torn h,
    fun context => ⟨fun d h => Context.withMetadataTimeout_of_asksFor h,
      Context.withMetadataTimeout_of_not_asksFor⟩, fun method kind metadata start => ?_⟩
  refine ⟨fun d => Context.timeout_withMetadataTimeout_iff rfl, fun d h => ?_, fun h => ?_⟩
  · rw [Context.withMetadataTimeout_of_asksFor h]
    rfl
  · rw [Context.withMetadataTimeout_of_not_asksFor h]
    rfl

/-- Metadata with some values for the timeout. -/
def timeoutMetadata (values : List (List Char)) : Metadata :=
  ⟨values.map fun v => ("grpc-timeout", Utf8.write v)⟩

/-- Eight digits and the longest unit. -/
def longestTimeout : List Char := List.replicate 8 '9' ++ ['H']

/-- The longest time that can be asked for is heeded, whatever is asked for after it.  A value that ends
within a character would be torn; but it cannot be read, so there is no timeout. -/
theorem timeouts_exact_torn :
    (∀ kind, (Context.start "/svc/A" kind (some (timeoutMetadata [longestTimeout, ['1', 'S']]))
      |>.withMetadataTimeout.timeout) = some ⟨359_999_996_400, 0, by decide, by decide⟩)
    ∧ EndsTorn ['1', 'é'] ∧ readTimeout ['1', 'é'] = .torn
    ∧ ∀ kind start, (Context.start "/svc/A" kind (some (timeoutMetadata [['1', 'é'], ['1', 'S']]))
      |>.withMetadataTimeout.deadline start) = none := by
  obtain ⟨htexts, _, _, hcalls⟩ := timeouts_exact
  have htorn : EndsTorn ['1', 'é'] := ⟨by decide, by decide, 'é', rfl, by decide⟩
  refine ⟨fun kind => ?_, htorn, (htexts _).2.2.1.2 htorn, fun kind start => ?_⟩
  · have hstates : StatesNanos longestTimeout (99_999_999 * 3_600_000_000_000) :=
      .intro (by decide) ⟨List.cons_ne_nil _ _, List.all_eq_true.1 rfl, by decide⟩ (by decide)
    exact ((hcalls "/svc/A" kind _ 0).1 _).2
      ⟨_, rfl, [], Utf8.write longestTimeout, _, longestTimeout, rfl, List.forall_mem_nil _, by decide, hstates⟩
  · refine (hcalls "/svc/A" kind _ start).2.2 ?_
    rintro d ⟨_, hm, hasks⟩
    cases hm
    have hnone : (timeoutMetadata [['1', 'é'], ['1', 'S']]).timeout? = none := by decide
    exact nomatch hnone.symm.trans (Metadata.timeout?_eq_some_iff.2 hasks)

end UserDirectory.Call
