import UserDirectory.Proofs.Json.Codec
import UserDirectory.Proofs.Time.InstantText
import UserDirectory.Wire.Payload
/-!
# What is sent is read

Main statements:
  * `decode_of_spells`: a text is read as what is read from its node;
  * `decode_of_tells`: a text of a value is read as what the value tells.
-/

namespace UserDirectory.Wire

open UserDirectory.Json

variable {α : Type}

/-- A text, with blanks around it, is read as what is read from its node. -/
theorem decode_of_spells {c : Codec α} {n : Node} {a : α} (h : c.read n = .ok a) {g cs g₁ : List Char}
    (hg : Gap g) (hcs : Spells (.value n) cs) (hg₁ : Gap g₁) :
    decode c (String.ofList (g ++ (cs ++ g₁))) = .ok a := by
  unfold decode
  rw [Document.ofText_of_spells hg hcs hg₁]
  unfold decodeDocument
  simp only [bind, Except.bind]
  rw [h]
  rfl

/-- A text of a value, its members in any order and with blanks in it and around it, is read as what
the value tells. -/
theorem decode_of_tells {c : Codec α} {v w : Value} {a : α} (h : c.Tells v a) (hw : Rearranged v w)
    {g cs g₁ : List Char} (hg : Gap g) (hcs : Renders (.value w) cs) (hg₁ : Gap g₁) :
    decode c (String.ofList (g ++ (cs ++ g₁))) = .ok a :=
  decode_of_spells (h w hw) hg hcs.spells hg₁

/-- What is encoded is decoded. -/
theorem decode_encode {c : Codec α} (h : c.Lawful) (a : α) : decode c (encode c a) = .ok a := by
  have hread := decode_of_tells (h a) (.refl _) .nil (renders_write _) .nil
  rw [List.nil_append, List.append_nil] at hread
  exact hread

/-! ## §1. Values of one kind. -/

theorem lawful_instant : instant.Lawful :=
  Codec.lawful_text fun t => by
    show Time.Instant.read (String.ofList t.write).toList = _
    rw [String.toList_ofList]
    exact t.read_write

theorem lawful_addressKind : addressKind.Lawful :=
  Codec.lawful_enumeration fun k => by cases k <;> decide

theorem lawful_role : role.Lawful :=
  Codec.lawful_enumeration fun r => by cases r <;> decide

theorem lawful_status : status.Lawful :=
  Codec.lawful_enumeration fun s => by cases s <;> decide

theorem lawful_activityKind : activityKind.Lawful :=
  Codec.lawful_enumeration fun k => by cases k <;> decide

theorem lawful_syncStatus : syncStatus.Lawful :=
  Codec.lawful_enumeration fun s => by cases s <;> decide

/-! ## §2. Records. -/

/-- A length of time is read back, whichever of its two members comes first. -/
theorem lawful_duration : duration.Lawful := by
  intro d
  have hseconds : (Codec.below UInt64.size).Tells (.int d.seconds) d.seconds :=
    Codec.tells_below d.seconds_lt (Nat.le_refl _)
  have hnanos : (Codec.below UInt32.size).Tells (.int d.nanos) d.nanos :=
    Codec.tells_below (Nat.lt_trans d.nanos_lt (by decide)) (by decide)
  exact Codec.tells_record (by decide) ⟨hseconds, hnanos, trivial⟩ d.ofNanos?_totalNanos

theorem lawful_address : address.Lawful := by
  refine Codec.Lawful.record ?_ fun a => rfl
  exact ⟨lawful_addressKind, by decide, Codec.lawful_string, by decide, Codec.lawful_string,
    by decide, Codec.lawful_string, by decide, Codec.lawful_string, by decide, Codec.lawful_string,
    by decide, Codec.lawful_bool, by decide, trivial⟩

theorem lawful_profile : profile.Lawful := by
  have hbirth : instant.option.Lawful := lawful_instant.option fun t => Value.noConfusion
  refine Codec.Lawful.record ?_ fun p => rfl
  exact ⟨Codec.lawful_string, by decide, Codec.lawful_string, by decide, Codec.lawful_string,
    by decide, hbirth, by decide, Codec.lawful_int32.map, by decide, trivial⟩

end UserDirectory.Wire
