import Mathlib.Data.List.Forall2
import UserDirectory.Proofs.Errors
import UserDirectory.Proofs.Json.Codec
/-!
# What was read was there

The other half of `UserDirectory.Proofs.Json.Codec`: from a value that a codec has read to the node that
it was read from.  A record that was read from an object had each of its fields there once, or not at
all where it can be missing; no field came twice, whatever other members there were.

Main statement: `Codec.read_record_eq_ok`.
-/

namespace UserDirectory.Json

variable {α β τ : Type}

/-! ## §1. Results. -/

theorem stopAt_eq_ok {f : Option Fault} {u : Unit} : stopAt f = .ok u ↔ f = none := by
  cases f with
  | none => exact ⟨fun _ => rfl, fun _ => rfl⟩
  | some f =>
    constructor <;> intro h <;> cases h

theorem require_eq_ok {o : Option α} {a : α} : require o = .ok a ↔ o = some a := by
  cases o with
  | none =>
    constructor <;> intro h <;> cases h
  | some b => exact ⟨fun h => congrArg some (Except.ok.inj h), fun h => congrArg _ (Option.some.inj h)⟩

theorem Reading.refuse_ne_ok {r : Reading α} {b : β} : r.refuse ≠ .ok b := by
  intro h
  unfold refuse at h
  split at h <;> cases h

theorem Node.refuse_ne_ok {n : Node} {a : α} : n.refuse ≠ .ok a := by
  intro h
  unfold refuse at h
  split at h
  · exact Reading.refuse_ne_ok h
  · exact Reading.refuse_ne_ok h
  all_goals cases h

/-! ## §2. Scalars and lists. -/

/-- A node is a certain text. -/
def Node.IsTextOf (n : Node) (s : String) : Prop := ∃ r : Reading String, n = .string r ∧ r.wanted = .ok s

/-- A node is a certain whole number. -/
def Node.IsWhole (n : Node) (i : Int) : Prop :=
  ∃ r : Reading Number, n = .number r ∧ r.wanted = .ok (.int i)

/-- A node is an array of certain texts. -/
def Node.AreTexts (n : Node) (names : List String) : Prop :=
  ∃ items, n = .array items none ∧ List.Forall₂ Node.IsTextOf items names

/-- A node is a name: a text, or the only key of an object with null under it. -/
def Node.IsName (n : Node) (s : String) : Prop :=
  n.IsTextOf s ∨ ∃ key : Reading String, n = .object [(key, .null)] none ∧ key.wanted = .ok s

namespace Codec

theorem read_string_eq_ok {n : Node} {s : String} (h : string.read n = .ok s) : n.IsTextOf s := by
  cases n with
  | string r => exact ⟨r, rfl, h⟩
  | _ =>
    simp only [string] at h
    exact absurd h Node.refuse_ne_ok

theorem read_whole_eq_ok {toInt : α → Int} {ofInt? : Int → Option α} {n : Node} {a : α}
    (h : (whole toInt ofInt?).read n = .ok a) : ∃ i, n.IsWhole i ∧ ofInt? i = some a := by
  cases n with
  | number r =>
    obtain ⟨number, hread, h⟩ := bind_eq_ok.1 h
    cases number with
    | int i => exact ⟨i, ⟨r, rfl, hread⟩, require_eq_ok.1 h⟩
    | fraction => cases h
  | _ =>
    simp only [whole] at h
    exact absurd h Node.refuse_ne_ok

theorem read_int64_eq_ok {n : Node} {t : Int64} (h : int64.read n = .ok t) : n.IsWhole t.toInt := by
  obtain ⟨i, hi, h⟩ := read_whole_eq_ok h
  split at h
  · rename_i hbounds
    have ht : Int64.ofInt i = t := Option.some.inj h
    rw [← ht, Int64.toInt_ofInt_of_le hbounds.1 (Int.lt_add_one_of_le hbounds.2)]
    exact hi
  · cases h

theorem readAll_eq_ok {read : Node → Except Fault α} {items : List Node} {ending : Option Break}
    {as : List α} (h : readAll read items ending = .ok as) :
    ending = none ∧ List.Forall₂ (fun n a => read n = .ok a) items as := by
  induction items generalizing as with
  | nil =>
    obtain ⟨_, hend, h⟩ := bind_eq_ok.1 h
    cases h
    exact ⟨Option.map_eq_none_iff.1 (stopAt_eq_ok.1 hend), .nil⟩
  | cons n items ih =>
    obtain ⟨a, hfirst, h⟩ := bind_eq_ok.1 h
    obtain ⟨rest, hrest, h⟩ := bind_eq_ok.1 h
    cases h
    obtain ⟨hend, hall⟩ := ih hrest
    exact ⟨hend, .cons hfirst hall⟩

theorem read_list_string_eq_ok {n : Node} {names : List String}
    (h : (list string).read n = .ok names) : n.AreTexts names := by
  cases n with
  | array items ending =>
    obtain ⟨rfl, hall⟩ := readAll_eq_ok h
    exact ⟨items, rfl, hall.imp fun _ _ => read_string_eq_ok⟩
  | _ =>
    simp only [list] at h
    exact absurd h Node.refuse_ne_ok

theorem readUnit_eq_ok {n : Node} {u : Unit} (h : readUnit n = .ok u) : n = .null := by
  cases n with
  | null => rfl
  | _ =>
    simp only [readUnit] at h
    exact absurd h Node.refuse_ne_ok

theorem named?_eq_some {name : α → String} {all : List α} {s : String} {a : α}
    (h : named? name all s = some a) : name a = s := by
  have hfound := List.find?_some h
  exact of_decide_eq_true hfound

theorem read_enumeration_eq_ok {name : α → String} {all : List α} {n : Node} {a : α}
    (h : (enumeration name all).read n = .ok a) : n.IsName (name a) := by
  cases n with
  | string r =>
    obtain ⟨s, hread, h⟩ := bind_eq_ok.1 h
    exact .inl ⟨r, rfl, by rw [hread, named?_eq_some (require_eq_ok.1 h)]⟩
  | object members ending =>
    match members, ending with
    | [], none => cases h
    | [], some _ => cases h
    | (key, value) :: more, ending =>
      obtain ⟨s, hkey, h⟩ := bind_eq_ok.1 h
      obtain ⟨found, hname, h⟩ := bind_eq_ok.1 h
      obtain ⟨_, hnull, h⟩ := bind_eq_ok.1 h
      -- nothing may come after the key
      match more, ending with
      | [], none =>
        cases h
        refine .inr ⟨key, by rw [readUnit_eq_ok hnull], ?_⟩
        rw [hkey, named?_eq_some (require_eq_ok.1 hname)]
      | [], some _ => cases h
      | _ :: _, _ => cases h
  | _ => cases h

end Codec

/-! ## §3. Records. -/

/-- The nodes that stand under a name, in order. -/
def nodesUnder (name : String) (members : List (Reading String × Node)) : List Node :=
  (members.filter fun m => m.1.wanted.toOption = some name).map (·.2)

theorem nodesUnder_concat (name : String) (members : List (Reading String × Node))
    (key : Reading String) (n : Node) :
    nodesUnder name (members ++ [(key, n)])
      = nodesUnder name members ++ if key.wanted.toOption = some name then [n] else [] := by
  unfold nodesUnder
  rw [List.filter_append, List.map_append]
  congr 1
  by_cases h : key.wanted.toOption = some name
  · rw [if_pos h, List.filter_cons_of_pos (by exact decide_eq_true h)]
    rfl
  · rw [if_neg h, List.filter_cons_of_neg (by simpa using h)]
    rfl

/-- A field is found among members: once, or not at all where it can be missing. -/
def Field.Found (f : Field β) (members : List (Reading String × Node)) (b : β) : Prop :=
  (∃ n, nodesUnder f.name members = [n] ∧ f.codec.read n = .ok b)
    ∨ nodesUnder f.name members = [] ∧ f.absent = some b

/-- The slot of a field tells what has come under its name so far. -/
def Field.Tracks (f : Field β) (members : List (Reading String × Node)) : Option β → Prop
  | none => nodesUnder f.name members = []
  | some b => ∃ n, nodesUnder f.name members = [n] ∧ f.codec.read n = .ok b

namespace Fields

/-- Each field is found among members. -/
def Found : {τ : Type} → Fields τ → List (Reading String × Node) → τ → Prop
  | _, .nil, _, _ => True
  | _, .cons f rest, members, (b, t) => f.Found members b ∧ rest.Found members t

/-- Each slot tells what has come under the name of its field so far. -/
def Tracks : {τ : Type} → (fs : Fields τ) → List (Reading String × Node) → fs.Slots → Prop
  | _, .nil, _, _ => True
  | _, .cons f rest, members, slots => f.Tracks members slots.1 ∧ rest.Tracks members slots.2

/-- The fields are read from the items of an array in their order. -/
def Listed : {τ : Type} → Fields τ → List Node → τ → Prop
  | _, .nil, items, _ => items = []
  | _, .cons f rest, [], (b, t) => f.absentInArray = some b ∧ rest.Listed [] t
  | _, .cons f rest, n :: more, (b, t) => f.codec.read n = .ok b ∧ rest.Listed more t

theorem tracks_noSlots (fs : Fields τ) : fs.Tracks [] fs.noSlots := by
  induction fs with
  | nil => trivial
  | cons f rest ih => exact ⟨rfl, ih⟩

/-- A member under another name tells the fields nothing. -/
theorem Tracks.pass {fs : Fields τ} {members : List (Reading String × Node)} {slots : fs.Slots}
    (h : fs.Tracks members slots) {key : Reading String} (n : Node) {name : String}
    (hkey : key.wanted = .ok name) (hname : name ∉ fs.names) :
    fs.Tracks (members ++ [(key, n)]) slots := by
  induction fs with
  | nil => trivial
  | cons f rest ih =>
    have hne : ¬ key.wanted.toOption = some f.name := by
      rw [hkey]
      intro heq
      exact hname (Option.some.inj heq ▸ List.mem_cons_self)
    obtain ⟨hslot, hrest⟩ := h
    refine ⟨?_, ih hrest fun hmem => hname (List.mem_cons_of_mem _ hmem)⟩
    unfold Field.Tracks at hslot ⊢
    rw [nodesUnder_concat, if_neg hne, List.append_nil]
    exact hslot

/-- A member that is put into a slot is the first under its name. -/
theorem Tracks.put {fs : Fields τ} (hnames : fs.names.Nodup)
    {members : List (Reading String × Node)} {slots slots' : fs.Slots} (h : fs.Tracks members slots)
    {key : Reading String} {n : Node} {name : String} (hkey : key.wanted = .ok name)
    (hput : fs.put name n slots = some (.ok slots')) :
    fs.Tracks (members ++ [(key, n)]) slots' := by
  induction fs with
  | nil => cases hput
  | cons f rest ih =>
    obtain ⟨hslot, hrest⟩ := h
    obtain ⟨hfirst, hnames⟩ := List.nodup_cons.1 hnames
    unfold Fields.put at hput
    by_cases heq : f.name = name
    · -- this field, whose slot must be empty; no other field has the name
      rw [if_pos heq] at hput
      have hput := Option.some.inj hput
      by_cases hfull : slots.1.isSome = true
      · rw [if_pos hfull] at hput
        cases hput
      · rw [if_neg hfull] at hput
        obtain ⟨b, hread, rfl⟩ := map_eq_ok.1 hput
        refine ⟨⟨n, ?_, hread⟩, hrest.pass n hkey (heq ▸ hfirst)⟩
        have hnone : slots.1 = none := by
          cases hslots : slots.1 with
          | none => rfl
          | some b => exact absurd (by rw [hslots]; rfl) hfull
        rw [hnone] at hslot
        rw [nodesUnder_concat, show nodesUnder f.name members = [] from hslot, hkey, heq,
          if_pos (show (Except.ok name : Except Fault String).toOption = some name from rfl)]
        rfl
    · -- another field
      rw [if_neg heq] at hput
      obtain ⟨r, hmore, hr⟩ := Option.map_eq_some_iff.1 hput
      obtain ⟨more, rfl, rfl⟩ := map_eq_ok.1 hr
      refine ⟨?_, ih hnames hrest hmore⟩
      have hne : ¬ key.wanted.toOption = some f.name := by
        rw [hkey]
        exact fun h => heq (Option.some.inj h).symm
      unfold Field.Tracks at hslot ⊢
      rw [nodesUnder_concat, if_neg hne, List.append_nil]
      exact hslot

/-- A member that is put into no slot has the name of no field. -/
theorem not_mem_of_put_eq_none {fs : Fields τ} {name : String} {n : Node} {slots : fs.Slots}
    (h : fs.put name n slots = none) : name ∉ fs.names := by
  induction fs with
  | nil => exact List.not_mem_nil
  | cons f rest ih =>
    unfold Fields.put at h
    by_cases heq : f.name = name
    · rw [if_pos heq] at h
      cases h
    · rw [if_neg heq] at h
      intro hmem
      rcases List.mem_cons.1 hmem with hmem | hmem
      · exact heq hmem.symm
      · exact ih (Option.map_eq_none_iff.1 h) hmem

/-- After the last member the slots tell of all members. -/
theorem readMembers_eq_ok {fs : Fields τ} (hnames : fs.names.Nodup) {strict : Bool}
    {members before : List (Reading String × Node)} {ending : Option Break} {slots slots' : fs.Slots}
    (htracks : fs.Tracks before slots) (h : fs.readMembers strict members ending slots = .ok slots') :
    ending = none ∧ fs.Tracks (before ++ members) slots' := by
  induction members generalizing before slots with
  | nil =>
    obtain ⟨_, hend, h⟩ := bind_eq_ok.1 h
    cases h
    rw [List.append_nil]
    exact ⟨Option.map_eq_none_iff.1 (stopAt_eq_ok.1 hend), htracks⟩
  | cons m members ih =>
    obtain ⟨key, n⟩ := m
    obtain ⟨name, hkey, h⟩ := bind_eq_ok.1 h
    rw [List.append_cons]
    cases hput : fs.put name n slots with
    | some r =>
      rw [hput] at h
      obtain ⟨more, rfl, h⟩ := bind_eq_ok.1 h
      exact ih (htracks.put hnames hkey hput) h
    | none =>
      rw [hput] at h
      have hpass := htracks.pass n hkey (not_mem_of_put_eq_none hput)
      simp only at h
      split at h
      · cases h
      · obtain ⟨_, _, h⟩ := bind_eq_ok.1 h
        exact ih hpass h

/-- What slots hold has been found. -/
theorem Tracks.found {fs : Fields τ} {members : List (Reading String × Node)} {slots : fs.Slots}
    (h : fs.Tracks members slots) {t : τ} (hcontents : fs.contents slots = .ok t) :
    fs.Found members t := by
  induction fs with
  | nil => trivial
  | cons f rest ih =>
    obtain ⟨hslot, hrest⟩ := h
    obtain ⟨b, hfield, hcontents⟩ := bind_eq_ok.1 hcontents
    obtain ⟨t, hmore, hcontents⟩ := bind_eq_ok.1 hcontents
    cases hcontents
    refine ⟨?_, ih hrest hmore⟩
    have hfield := require_eq_ok.1 hfield
    cases hslots : slots.1 with
    | none =>
      rw [hslots] at hslot hfield
      exact .inr ⟨hslot, hfield⟩
    | some c =>
      rw [hslots] at hslot hfield
      cases hfield
      exact .inl hslot

/-- Fields that were read from an array and used it up stand there in their order. -/
theorem readItems_eq_ok {fs : Fields τ} {items : List Node} {ending : Option Break} {t : τ}
    (h : fs.readItems items ending = .ok (t, [])) : fs.Listed items t := by
  induction fs generalizing items with
  | nil =>
    cases h
    rfl
  | cons f rest ih =>
    cases items with
    | nil =>
      obtain ⟨_, _, h⟩ := bind_eq_ok.1 h
      obtain ⟨b, hfield, h⟩ := bind_eq_ok.1 h
      obtain ⟨⟨t, left⟩, hmore, h⟩ := bind_eq_ok.1 h
      cases h
      exact ⟨require_eq_ok.1 hfield, ih hmore⟩
    | cons n more =>
      obtain ⟨b, hfield, h⟩ := bind_eq_ok.1 h
      obtain ⟨⟨t, left⟩, hmore, h⟩ := bind_eq_ok.1 h
      cases h
      exact ⟨hfield, ih hmore⟩

end Fields

/-- A record that was read was an object among whose members its fields are found, or an array of its
fields. -/
theorem Codec.read_record_eq_ok {fs : Fields τ} (hnames : fs.names.Nodup) {strict : Bool}
    {contents : α → τ} {make? : τ → Option α} {n : Node} {a : α}
    (h : (Codec.record fs strict contents make?).read n = .ok a) :
    (∃ members t, n = .object members none ∧ fs.Found members t ∧ make? t = some a)
      ∨ ∃ items t, n = .array items none ∧ fs.Listed items t ∧ make? t = some a := by
  cases n with
  | object members ending =>
    obtain ⟨slots, hread, hslots⟩ := bind_eq_ok.1 h
    obtain ⟨t, hcontents, hmade⟩ := bind_eq_ok.1 hslots
    obtain ⟨rfl, htracks⟩ := Fields.readMembers_eq_ok hnames fs.tracks_noSlots hread
    exact .inl ⟨members, t, rfl, Fields.Tracks.found htracks hcontents, require_eq_ok.1 hmade⟩
  | array items ending =>
    obtain ⟨⟨t, left⟩, hread, h⟩ := bind_eq_ok.1 h
    obtain ⟨made, hmade, h⟩ := bind_eq_ok.1 h
    obtain ⟨_, hend, h⟩ := bind_eq_ok.1 h
    cases h
    -- all items have been read, and the array was closed
    match left, ending with
    | [], none => exact .inr ⟨items, t, rfl, Fields.readItems_eq_ok hread, require_eq_ok.1 hmade⟩
    | [], some _ => cases hend
    | _ :: _, _ => cases hend
  | _ =>
    simp only [Codec.record] at h
    exact absurd h Node.refuse_ne_ok

end UserDirectory.Json
