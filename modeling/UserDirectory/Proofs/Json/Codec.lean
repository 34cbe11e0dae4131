import UserDirectory.Json.Codec
import UserDirectory.Proofs.Json.Reading
/-!
# What is written is read

A codec is lawful if it reads back what it writes, in whatever order the members of the objects come.
Scalars are lawful, and what is built of lawful codecs is.

Main statements:
  * `Codec.Lawful.list`, `Codec.Lawful.map`, `Codec.Lawful.option`, `Codec.Lawful.record`;
  * `Codec.read_record`: a record is read from any members among which its fields are.
-/

namespace UserDirectory.Json

variable {α β τ : Type}

/-! ## §1. Members in another order. -/

/-- Values that differ at most in the order of the members of their objects. -/
inductive Rearranged : Value → Value → Prop
  | null : Rearranged .null .null
  | bool (b : Bool) : Rearranged (.bool b) (.bool b)
  | int (n : Int) : Rearranged (.int n) (.int n)
  | string (s : String) : Rearranged (.string s) (.string s)
  | array {vs ws : List Value} (hlen : vs.length = ws.length)
      (h : ∀ p ∈ vs.zip ws, Rearranged p.1 p.2) : Rearranged (.array vs) (.array ws)
  | object {ms ns os : List (String × Value)} (hlen : ms.length = ns.length)
      (hkeys : ∀ p ∈ ms.zip ns, p.1.1 = p.2.1) (h : ∀ p ∈ ms.zip ns, Rearranged p.1.2 p.2.2)
      (hperm : ns.Perm os) : Rearranged (.object ms) (.object os)

/-- What is paired with itself. -/
theorem eq_of_mem_zip_self {l : List α} {p : α × α} (h : p ∈ l.zip l) : p.1 = p.2 ∧ p.1 ∈ l := by
  induction l with
  | nil => cases h
  | cons a l ih =>
    rcases List.mem_cons.1 h with rfl | h
    · exact ⟨rfl, List.mem_cons_self⟩
    · exact ⟨(ih h).1, List.mem_cons_of_mem _ (ih h).2⟩

/-- What stands at the same place in two lists is paired. -/
theorem getElem_mem_zip {l : List α} {l' : List β} {i : Nat} (h : i < l.length) (h' : i < l'.length) :
    (l[i], l'[i]) ∈ l.zip l' := by
  have hzip : i < (l.zip l').length := by
    rw [List.length_zip]
    omega
  rw [← List.getElem_zip (h := hzip)]
  exact List.getElem_mem _

/-- The order may stay as it is. -/
theorem Rearranged.refl : (v : Value) → Rearranged v v
  | .null => .null
  | .bool b => .bool b
  | .int n => .int n
  | .string s => .string s
  | .array vs => .array rfl fun p hp => by
    obtain ⟨heq, hmem⟩ := eq_of_mem_zip_self hp
    rw [← heq]
    exact Rearranged.refl p.1
  | .object ms => .object rfl (fun p hp => by rw [(eq_of_mem_zip_self hp).1])
    (fun ⟨⟨k, v⟩, n⟩ hp => by
      obtain ⟨heq, hmem⟩ := eq_of_mem_zip_self hp
      rw [← show (k, v) = n from heq]
      exact Rearranged.refl v) (.refl _)
termination_by v => sizeOf v
decreasing_by
  · have := List.sizeOf_lt_of_mem hmem
    simp only [Value.array.sizeOf_spec]
    omega
  · have := List.sizeOf_lt_of_mem hmem
    simp only [Value.object.sizeOf_spec, Prod.mk.sizeOf_spec] at this ⊢
    omega

/-- The members of an object in another order are its members, each with its value rearranged. -/
theorem Rearranged.members {ms : List (String × Value)} {v : Value} (h : Rearranged (.object ms) v) :
    ∃ os, v = .object os ∧ (os.map (·.1)).Perm (ms.map (·.1))
      ∧ ∀ o ∈ os, ∃ m ∈ ms, m.1 = o.1 ∧ Rearranged m.2 o.2 := by
  cases h with
  | @object _ ns os hlen hkeys hvalues hperm =>
    have hnames : ms.map (·.1) = ns.map (·.1) := by
      refine List.ext_getElem (by rw [List.length_map, List.length_map, hlen]) fun i hi hi' => ?_
      rw [List.getElem_map, List.getElem_map]
      rw [List.length_map] at hi hi'
      exact hkeys (ms[i], ns[i]) (getElem_mem_zip hi hi')
    refine ⟨os, rfl, ?_, fun o ho => ?_⟩
    · rw [hnames]
      exact (hperm.map _).symm
    · obtain ⟨i, hi, rfl⟩ := List.getElem_of_mem (hperm.mem_iff.2 ho)
      have hmem := getElem_mem_zip (hlen ▸ hi) hi
      exact ⟨ms[i], List.getElem_mem _, hkeys _ hmem, hvalues _ hmem⟩

/-- The items of an array, each rearranged. -/
theorem Rearranged.items {vs : List Value} {v : Value} (h : Rearranged (.array vs) v) :
    ∃ ws, v = .array ws ∧ vs.length = ws.length ∧ ∀ p ∈ vs.zip ws, Rearranged p.1 p.2 := by
  cases h with
  | array hlen h => exact ⟨_, rfl, hlen, h⟩

/-- Members under names that can be read. -/
def Node.named (os : List (String × Node)) : List (Reading String × Node) :=
  os.map fun o => (.ok o.1, o.2)

theorem Node.ofMembers_eq_named (ms : List (String × Value)) :
    Node.ofMembers ms = Node.named (ms.map fun m => (m.1, .ofValue m.2)) := by
  induction ms with
  | nil => rfl
  | cons m more ih =>
    unfold Node.ofMembers
    rw [ih]
    rfl

namespace Codec

/-! ## §2. Lawful codecs. -/

/-- A value is read as a certain one, in whatever order the members of its objects come. -/
def Tells (c : Codec α) (v : Value) (a : α) : Prop :=
  ∀ w, Rearranged v w → c.read (.ofValue w) = .ok a

/-- What is written is read back. -/
def Lawful (c : Codec α) : Prop := ∀ a, c.Tells (c.write a) a

theorem lawful_string : string.Lawful := by
  intro s w h
  cases h
  rfl

theorem lawful_bool : bool.Lawful := by
  intro b w h
  cases h
  rfl

/-- What reads a number that is small enough reads it as it is. -/
theorem ofValue_int {n : Int} (h : -9_223_372_036_854_775_808 ≤ n ∧ n < 18_446_744_073_709_551_616) :
    Node.ofValue (.int n) = .number (.ok (.int n)) := by
  have hlimit : UInt64.size = 18_446_744_073_709_551_616 := rfl
  unfold Node.ofValue integerNode
  by_cases hneg : n < 0
  · -- negative: no zero with a sign, and not below what 64 bits hold
    have hzero : ¬ (n.natAbs = 0 ∨ 9_223_372_036_854_775_808 < n.natAbs) := by omega
    have habs : -(n.natAbs : Int) = n := by omega
    rw [if_pos (decide_eq_true hneg), if_neg hzero, habs]
  · have hsmall : n.natAbs < UInt64.size := by omega
    have habs : (n.natAbs : Int) = n := by omega
    have hnot : ¬ decide (n < 0) = true := by
      rw [decide_eq_true_eq]
      exact hneg
    rw [if_neg hnot, if_pos hsmall, habs]

/-- A number is read back if it has at most 64 bits and is found again. -/
theorem tells_whole {toInt : α → Int} {ofInt? : Int → Option α} {a : α}
    (hsmall : -9_223_372_036_854_775_808 ≤ toInt a ∧ toInt a < 18_446_744_073_709_551_616)
    (h : ofInt? (toInt a) = some a) : (whole toInt ofInt?).Tells (.int (toInt a)) a := by
  intro w hw
  cases hw
  rw [ofValue_int hsmall]
  show require (ofInt? (toInt a)) = _
  rw [h]
  rfl

/-- Numbers of a kind are read back if they have at most 64 bits and are found again. -/
theorem lawful_whole {toInt : α → Int} {ofInt? : Int → Option α}
    (hsmall : ∀ a, -9_223_372_036_854_775_808 ≤ toInt a ∧ toInt a < 18_446_744_073_709_551_616)
    (h : ∀ a, ofInt? (toInt a) = some a) : (whole toInt ofInt?).Lawful :=
  fun a => tells_whole (hsmall a) (h a)

theorem lawful_int32 : int32.Lawful := by
  have hbounds (n : Int32) : -2_147_483_648 ≤ n.toInt ∧ n.toInt ≤ 2_147_483_647 :=
    ⟨n.le_toInt, Int.le_of_lt_add_one n.toInt_lt⟩
  refine lawful_whole (fun n => ?_) (fun n => ?_)
  · have := hbounds n
    omega
  · have hpos : Int32.minValue.toInt ≤ n.toInt ∧ n.toInt ≤ Int32.maxValue.toInt := hbounds n
    rw [if_pos hpos, Int32.ofInt_toInt]

theorem lawful_uint32 : uint32.Lawful := by
  refine lawful_whole (fun n => ?_) (fun n => ?_)
  · have := n.toNat_lt
    omega
  · have hpos : (0 : Int) ≤ n.toNat ∧ (n.toNat : Int) < UInt32.size := by
      have : n.toNat < UInt32.size := n.toNat_lt
      omega
    rw [if_pos hpos, Int.toNat_natCast, UInt32.ofNat_toNat]

/-- A number below a limit is read back. -/
theorem tells_below {limit n : Nat} (h : n < limit) (hlimit : limit ≤ UInt64.size) :
    (below limit).Tells (.int n) n := by
  have hsize : UInt64.size = 18_446_744_073_709_551_616 := rfl
  refine tells_whole (a := n) (by omega) ?_
  rw [if_pos (by omega), Int.toNat_natCast]

/-- Values with a written form are read back if the form is. -/
theorem lawful_text {show_ : α → String} {read? : String → Option α}
    (h : ∀ a, read? (show_ a) = some a) : (text show_ read?).Lawful := by
  intro a w hw
  cases hw
  show require (read? (show_ a)) = _
  rw [h a]
  rfl

/-- Values with names are read back if the names tell them apart. -/
theorem lawful_enumeration {name : α → String} {all : List α}
    (h : ∀ a, named? name all (name a) = some a) : (enumeration name all).Lawful := by
  intro a w hw
  cases hw
  show require (named? name all (name a)) = _
  rw [h a]
  rfl

/-- What is there is not met as null. -/
theorem ofValue_ne_null {v w : Value} (h : Rearranged v w) (hv : v ≠ .null) :
    Node.ofValue w ≠ .null := by
  cases h with
  | null => exact absurd rfl hv
  | int n =>
    unfold Node.ofValue integerNode fractionNode
    repeat' split
    all_goals exact Node.noConfusion
  | _ => exact Node.noConfusion

/-- A value that is there is read as such. -/
theorem option_read {c : Codec α} {n : Node} (h : n ≠ .null) :
    c.option.read n = (c.read n).map some := by
  cases n with
  | null => exact absurd rfl h
  | _ => rfl

/-- A missing value is read back, and one that is there if it is not written as missing. -/
theorem Lawful.option {c : Codec α} (h : c.Lawful) (hnull : ∀ a, c.write a ≠ .null) :
    c.option.Lawful := by
  intro a w hw
  cases a with
  | none =>
    cases hw
    rfl
  | some a =>
    rw [option_read (ofValue_ne_null hw (hnull a)), h a w hw]
    rfl

/-- Lists are read item by item. -/
theorem Tells.list {c : Codec α} {vs : List Value} {as : List α} (hlen : vs.length = as.length)
    (h : ∀ p ∈ vs.zip as, c.Tells p.1 p.2) : (list c).Tells (.array vs) as := by
  intro w hw
  obtain ⟨ws, rfl, hlen', hitems⟩ := hw.items
  show readAll c.read (Node.ofItems ws) none = .ok as
  induction as generalizing vs ws with
  | nil =>
    have : ws = [] := by
      rw [List.length_nil] at hlen
      exact List.length_eq_zero_iff.1 (by omega)
    rw [this]
    rfl
  | cons a as ih =>
    cases vs with
    | nil => cases hlen
    | cons v vs =>
      cases ws with
      | nil => cases hlen'
      | cons x ws =>
        have hread := h (v, a) List.mem_cons_self x (hitems (v, x) List.mem_cons_self)
        have hrest := ih (Nat.succ.inj hlen : vs.length = as.length)
          (fun p hp => h p (List.mem_cons_of_mem _ hp)) ws
          (.array (Nat.succ.inj hlen') fun p hp => hitems p (List.mem_cons_of_mem _ hp))
          (Nat.succ.inj hlen') fun p hp => hitems p (List.mem_cons_of_mem _ hp)
        -- the first item, and then the rest
        unfold Node.ofItems readAll
        rw [hread]
        simp only [bind, Except.bind]
        rw [hrest]
        rfl

/-- Lists are read back if their items are. -/
theorem Lawful.list {c : Codec α} (h : c.Lawful) : (list c).Lawful := by
  intro as
  refine Tells.list (List.length_map _) fun p hp => ?_
  rw [List.zip_map_left] at hp
  obtain ⟨q, hq, rfl⟩ := List.mem_map.1 hp
  obtain ⟨heq, _⟩ := eq_of_mem_zip_self hq
  show c.Tells (c.write q.1) q.2
  rw [← heq]
  exact h q.1

/-- Entries are read into a map one after another. -/
theorem readEntries_eq {c : Codec α} {m : SortedMap String α} (os : List (String × Value))
    (m₀ : SortedMap String α)
    (h : ∀ o ∈ os, ∃ a, c.read (.ofValue o.2) = .ok a ∧ m.get? o.1 = some a) :
    ∃ m₁, readEntries c.read (Node.ofMembers os) none m₀ = .ok m₁
      ∧ ∀ k, m₁.get? k = if k ∈ os.map (·.1) then m.get? k else m₀.get? k := by
  induction os generalizing m₀ with
  | nil => exact ⟨m₀, rfl, fun k => rfl⟩
  | cons o os ih =>
    obtain ⟨a, hread, hget⟩ := h o List.mem_cons_self
    obtain ⟨m₁, hrest, hkeys⟩ := ih (m₀.insert o.1 a) fun o ho => h o (List.mem_cons_of_mem _ ho)
    refine ⟨m₁, ?_, fun k => ?_⟩
    · unfold Node.ofMembers readEntries
      show (do
        let k ← Except.ok o.1
        let a ← c.read (.ofValue o.2)
        readEntries c.read (Node.ofMembers os) none (m₀.insert k a)) = _
      simp only [bind, Except.bind, hread, hrest]
    · rw [hkeys k, SortedMap.get?_insert, List.map_cons]
      by_cases hk : k = o.1
      · -- the entry may come again, but then with the same value
        rw [if_pos hk, if_pos (List.mem_cons.2 (.inl hk))]
        split
        · rfl
        · rw [hk, hget]
      · rw [if_neg hk]
        by_cases hin : k ∈ os.map (·.1)
        · rw [if_pos hin, if_pos (List.mem_cons_of_mem _ hin)]
        · rw [if_neg hin, if_neg]
          intro hmem
          rcases List.mem_cons.1 hmem with heq | hmem
          · exact hk heq
          · exact hin hmem

/-- Maps are read back if their values are. -/
theorem Lawful.map {c : Codec α} (h : c.Lawful) : (map c).Lawful := by
  intro m w hw
  obtain ⟨os, rfl, hnames, hmembers⟩ := Rearranged.members hw
  have hread : ∀ o ∈ os, ∃ a, c.read (.ofValue o.2) = .ok a ∧ m.get? o.1 = some a := by
    intro o ho
    obtain ⟨n, hn, hkey, hvalue⟩ := hmembers o ho
    obtain ⟨e, he, rfl⟩ := List.mem_map.1 hn
    refine ⟨e.2, h e.2 o.2 hvalue, ?_⟩
    rw [← hkey]
    exact (m.mem_entries_iff e.1 e.2).1 he
  obtain ⟨m₁, hentries, hkeys⟩ := readEntries_eq os .empty hread
  show readEntries c.read (Node.ofMembers os) none .empty = .ok m
  rw [hentries]
  congr 1
  refine SortedMap.ext_get? fun k => ?_
  rw [hkeys k]
  split
  · rfl
  · -- no member has the name, so there is no such entry
    rename_i hk
    cases hget : m.get? k with
    | none => rfl
    | some a =>
      refine absurd (hnames.mem_iff.2 ?_) hk
      rw [List.map_map]
      exact List.mem_map.2 ⟨(k, a), (m.mem_entries_iff k a).2 hget, rfl⟩

end Codec

/-! ## §3. Fields. -/

namespace Fields

/-- The names of the fields. -/
def names : {τ : Type} → Fields τ → List String
  | _, .nil => []
  | _, .cons f rest => f.name :: rest.names

/-- Each field reads back what it holds. -/
def Tells : {τ : Type} → Fields τ → τ → Prop
  | _, .nil, _ => True
  | _, .cons f rest, (b, t) => f.codec.Tells (f.codec.write b) b ∧ rest.Tells t

/-- What each field reads back, and that no two have one name. -/
def Lawful : {τ : Type} → Fields τ → Prop
  | _, .nil => True
  | _, .cons f rest => f.codec.Lawful ∧ f.name ∉ rest.names ∧ rest.Lawful

theorem Lawful.tells {fs : Fields τ} (h : fs.Lawful) (t : τ) : fs.Tells t := by
  induction fs with
  | nil => trivial
  | cons f rest ih => exact ⟨h.1 t.1, ih h.2.2 t.2⟩

theorem Lawful.nodup {fs : Fields τ} (h : fs.Lawful) : fs.names.Nodup := by
  induction fs with
  | nil => exact .nil
  | cons f rest ih => exact List.nodup_cons.2 ⟨h.2.1, ih h.2.2⟩

/-- A member under the name of a field is read as what that field holds. -/
def Reads : {τ : Type} → Fields τ → String → Node → τ → Prop
  | _, .nil, _, _, _ => False
  | _, .cons f rest, name, n, (b, t) =>
    if f.name = name then f.codec.read n = .ok b else rest.Reads name n t

/-- The slots of those fields are filled whose names have been seen. -/
def Filled : {τ : Type} → (fs : Fields τ) → fs.Slots → List String → τ → Prop
  | _, .nil, _, _, _ => True
  | _, .cons f rest, slots, seen, (b, t) =>
    slots.1 = (if f.name ∈ seen then some b else none) ∧ rest.Filled slots.2 seen t

/-- Each field has been seen, or holds what it holds when it is missing. -/
def Complete : {τ : Type} → Fields τ → List String → τ → Prop
  | _, .nil, _, _ => True
  | _, .cons f rest, seen, (b, t) => (f.name ∈ seen ∨ f.absent = some b) ∧ rest.Complete seen t

theorem filled_noSlots (fs : Fields τ) (t : τ) : fs.Filled fs.noSlots [] t := by
  induction fs with
  | nil => trivial
  | cons f rest ih => exact ⟨rfl, ih t.2⟩

/-- Which of the other names have been seen does not matter. -/
theorem Filled.congr {fs : Fields τ} {slots : fs.Slots} {seen seen' : List String} {t : τ}
    (h : fs.Filled slots seen t) (hseen : ∀ name ∈ fs.names, name ∈ seen ↔ name ∈ seen') :
    fs.Filled slots seen' t := by
  induction fs with
  | nil => trivial
  | cons f rest ih =>
    obtain ⟨hslot, hrest⟩ := h
    refine ⟨?_, ih hrest fun name hname => hseen name (List.mem_cons_of_mem _ hname)⟩
    rw [hslot]
    have hf := hseen f.name List.mem_cons_self
    by_cases hin : f.name ∈ seen
    · rw [if_pos hin, if_pos (hf.1 hin)]
    · rw [if_neg hin, if_neg fun hin' => hin (hf.2 hin')]

/-- A member that is no field fills no slot. -/
theorem put_of_not_mem {fs : Fields τ} {name : String} (h : name ∉ fs.names) (n : Node)
    (slots : fs.Slots) : fs.put name n slots = none := by
  induction fs with
  | nil => rfl
  | cons f rest ih =>
    have hne : f.name ≠ name := fun heq => h (heq ▸ List.mem_cons_self)
    unfold put
    rw [if_neg hne, ih fun hmem => h (List.mem_cons_of_mem _ hmem)]
    rfl

/-- A member that is a field fills its slot. -/
theorem put_of_reads {fs : Fields τ} (hnodup : fs.names.Nodup) {name : String} {n : Node}
    {slots : fs.Slots} {seen : List String} {t : τ} (hfilled : fs.Filled slots seen t)
    (hnew : name ∉ seen) (h : fs.Reads name n t) :
    ∃ slots', fs.put name n slots = some (.ok slots') ∧ fs.Filled slots' (name :: seen) t := by
  induction fs with
  | nil => cases h
  | cons f rest ih =>
    obtain ⟨hslot, hrest⟩ := hfilled
    obtain ⟨hname, hnodup⟩ := List.nodup_cons.1 hnodup
    unfold Reads at h
    by_cases heq : f.name = name
    · -- this field, whose slot is empty as the name has not been seen
      rw [if_pos heq] at h
      have hempty : slots.1 = none := by
        rw [hslot, if_neg (heq ▸ hnew)]
      refine ⟨(some t.1, slots.2), ?_, ?_, hrest.congr fun other hother => ?_⟩
      · unfold put
        rw [if_pos heq, hempty, h]
        rfl
      · rw [if_pos (heq ▸ List.mem_cons_self)]
      · have hne : other ≠ name := fun hother' => hname (heq ▸ hother' ▸ hother)
        rw [List.mem_cons]
        exact ⟨.inr, fun hmem => hmem.resolve_left hne⟩
    · -- another field, and so this slot stays as it is
      rw [if_neg heq] at h
      obtain ⟨more, hput, hmore⟩ := ih hnodup hrest h
      refine ⟨(slots.1, more), ?_, ?_, hmore⟩
      · unfold put
        rw [if_neg heq, hput]
        rfl
      · rw [hslot]
        by_cases hin : f.name ∈ seen
        · rw [if_pos hin, if_pos (List.mem_cons_of_mem _ hin)]
        · rw [if_neg hin, if_neg]
          intro hmem
          rcases List.mem_cons.1 hmem with heq' | hmem
          · exact heq heq'
          · exact hin hmem

/-- Filled slots of a complete record hold its contents. -/
theorem contents_of_filled {fs : Fields τ} {slots : fs.Slots} {seen : List String} {t : τ}
    (h : fs.Filled slots seen t) (hcomplete : fs.Complete seen t) : fs.contents slots = .ok t := by
  induction fs with
  | nil => rfl
  | cons f rest ih =>
    obtain ⟨hslot, hrest⟩ := h
    obtain ⟨hseen, hcomplete⟩ := hcomplete
    have hfield : require (slots.1.or f.absent) = .ok t.1 := by
      rw [hslot]
      by_cases hin : f.name ∈ seen
      · rw [if_pos hin]
        rfl
      · -- the field has not come and holds what it holds when it is missing
        rw [if_neg hin, hseen.resolve_left hin]
        rfl
    unfold contents
    rw [hfield]
    simp only [bind, Except.bind]
    rw [ih hrest hcomplete]
    rfl

/-- What the members of an object must be for a record to be read: no field comes twice, each is read
as what it holds, and whatever else there is is passed over. -/
structure Among (fs : Fields τ) (strict : Bool) (os : List (String × Node)) (t : τ) : Prop where
  once : os.Pairwise fun o o' => o.1 = o'.1 → o.1 ∉ fs.names
  reads : ∀ o ∈ os, o.1 ∈ fs.names → fs.Reads o.1 o.2 t
  others : ∀ o ∈ os, o.1 ∉ fs.names → strict = false ∧ o.2.skip = none
  complete : fs.Complete (os.map (·.1)) t

/-- Members are read one after another, in whatever order they come. -/
theorem readMembers_of_reads {fs : Fields τ} (hnodup : fs.names.Nodup) {strict : Bool}
    {os : List (String × Node)} {t : τ} {slots : fs.Slots} {seen : List String}
    (hfilled : fs.Filled slots seen t)
    (honce : os.Pairwise fun o o' => o.1 = o'.1 → o.1 ∉ fs.names)
    (hnew : ∀ o ∈ os, o.1 ∈ fs.names → o.1 ∉ seen)
    (hreads : ∀ o ∈ os, o.1 ∈ fs.names → fs.Reads o.1 o.2 t)
    (hothers : ∀ o ∈ os, o.1 ∉ fs.names → strict = false ∧ o.2.skip = none) :
    ∃ slots', fs.readMembers strict (Node.named os) none slots = .ok slots'
      ∧ fs.Filled slots' (os.map (·.1) ++ seen) t := by
  induction os generalizing slots seen with
  | nil => exact ⟨slots, rfl, hfilled⟩
  | cons o os ih =>
    obtain ⟨hfirst, honce⟩ := List.pairwise_cons.1 honce
    have hreads' := fun o' ho' => hreads o' (List.mem_cons_of_mem _ ho')
    have hothers' := fun o' ho' => hothers o' (List.mem_cons_of_mem _ ho')
    have hcons : Node.named (o :: os) = (.ok o.1, o.2) :: Node.named os := rfl
    rw [hcons]
    unfold readMembers
    simp only [Reading.ok, bind, Except.bind]
    by_cases hfield : o.1 ∈ fs.names
    · -- a field, which fills its slot
      obtain ⟨more, hput, hmore⟩ := put_of_reads hnodup hfilled
        (hnew o List.mem_cons_self hfield) (hreads o List.mem_cons_self hfield)
      have hnew' : ∀ o' ∈ os, o'.1 ∈ fs.names → o'.1 ∉ o.1 :: seen := by
        intro o' ho' hname hin
        rcases List.mem_cons.1 hin with heq | hin
        · exact hfirst o' ho' heq.symm hfield
        · exact hnew o' (List.mem_cons_of_mem _ ho') hname hin
      obtain ⟨slots', hread, hslots'⟩ := ih hmore honce hnew' hreads' hothers'
      rw [hput]
      refine ⟨slots', hread, hslots'.congr fun name _ => ?_⟩
      simp only [List.mem_append, List.map_cons, List.mem_cons]
      exact ⟨fun h => h.elim (.inl ∘ .inr) fun h => h.elim (.inl ∘ .inl) .inr,
        fun h => h.elim (fun h => h.elim (.inr ∘ .inl) .inl) (.inr ∘ .inr)⟩
    · -- no field, and passed over
      obtain ⟨hstrict, hskip⟩ := hothers o List.mem_cons_self hfield
      rw [put_of_not_mem hfield, hstrict, hskip]
      obtain ⟨slots', hread, hslots'⟩ := ih hfilled honce
        (fun o' ho' => hnew o' (List.mem_cons_of_mem _ ho')) hreads' hothers'
      rw [hstrict] at hread
      refine ⟨slots', hread, hslots'.congr fun name hname => ?_⟩
      have hne : name ≠ o.1 := fun heq => hfield (heq ▸ hname)
      simp only [List.mem_append, List.map_cons, List.mem_cons]
      exact ⟨fun h => h.elim (.inl ∘ .inr) .inr,
        fun h => h.elim (fun h => .inl (h.resolve_left hne)) .inr⟩

end Fields

/-- A record is read from any members among which its fields are. -/
theorem Codec.read_record {fs : Fields τ} (hnodup : fs.names.Nodup) {strict : Bool}
    {contents : α → τ} {make? : τ → Option α} {os : List (String × Node)} {t : τ}
    (h : fs.Among strict os t) :
    (Codec.record fs strict contents make?).read (.object (Node.named os) none)
      = require (make? t) := by
  obtain ⟨slots, hread, hfilled⟩ := Fields.readMembers_of_reads hnodup (fs.filled_noSlots t) h.once
    (fun o _ _ hin => by cases hin) h.reads h.others
  rw [List.append_nil] at hfilled
  show (do
    let slots ← fs.readMembers strict (Node.named os) none fs.noSlots
    require (make? (← fs.contents slots))) = _
  simp only [bind, Except.bind]
  rw [hread]
  simp only
  rw [Fields.contents_of_filled hfilled h.complete]

namespace Fields

theorem names_writeMembers (fs : Fields τ) (t : τ) : (fs.writeMembers t).map (·.1) = fs.names := by
  induction fs with
  | nil => rfl
  | cons f rest ih =>
    unfold writeMembers names
    rw [List.map_cons, ih t.2]

/-- What is written for a field is read as what the field holds. -/
theorem reads_of_mem_writeMembers {fs : Fields τ} (hnodup : fs.names.Nodup) {t : τ} (h : fs.Tells t)
    {m : String × Value} (hm : m ∈ fs.writeMembers t) {v : Value} (hv : Rearranged m.2 v) :
    fs.Reads m.1 (.ofValue v) t := by
  induction fs with
  | nil => cases hm
  | cons f rest ih =>
    obtain ⟨hname, hnodup⟩ := List.nodup_cons.1 hnodup
    obtain ⟨hf, hrest⟩ := h
    unfold Reads
    rcases List.mem_cons.1 hm with rfl | hm
    · rw [if_pos rfl]
      exact hf v hv
    · have hmem : m.1 ∈ rest.names := by
        rw [← names_writeMembers rest t.2]
        exact List.mem_map.2 ⟨m, hm, rfl⟩
      rw [if_neg fun (heq : f.name = m.1) => hname (heq ▸ hmem)]
      exact ih hnodup hrest hm

/-- More may have been seen. -/
theorem Complete.mono {fs : Fields τ} {seen seen' : List String} {t : τ} (h : fs.Complete seen t)
    (hseen : ∀ name ∈ seen, name ∈ seen') : fs.Complete seen' t := by
  induction fs with
  | nil => trivial
  | cons f rest ih => exact ⟨h.1.imp_left (hseen f.name), ih h.2⟩

theorem complete_of_subset {fs : Fields τ} {seen : List String} (h : ∀ name ∈ fs.names, name ∈ seen)
    (t : τ) : fs.Complete seen t := by
  induction fs with
  | nil => trivial
  | cons f rest ih =>
    exact ⟨.inl (h f.name List.mem_cons_self), ih (fun name hname => h name (List.mem_cons_of_mem _ hname)) t.2⟩

end Fields

/-- A record is read back if its fields are and its contents make it up. -/
theorem Codec.tells_record {fs : Fields τ} (hnodup : fs.names.Nodup) {strict : Bool} {contents : α → τ}
    {make? : τ → Option α} {a : α} {t : τ} (h : fs.Tells t) (hmake : make? t = some a) :
    (Codec.record fs strict contents make?).Tells (.object (fs.writeMembers t)) a := by
  intro w hw
  obtain ⟨os, rfl, hnames, hmembers⟩ := Rearranged.members hw
  rw [Fields.names_writeMembers] at hnames
  have hkeys : (os.map fun o => (o.1, Node.ofValue o.2)).map (·.1) = os.map (·.1) := by
    rw [List.map_map]
    rfl
  have hamong : fs.Among strict (os.map fun o => (o.1, Node.ofValue o.2)) t :=
    { once := by
        have hdistinct := hnames.nodup_iff.2 hnodup
        rw [← hkeys] at hdistinct
        exact (List.pairwise_map.1 hdistinct).imp fun hne heq => absurd heq hne
      reads := fun o ho _ => by
        obtain ⟨o, hmem, rfl⟩ := List.mem_map.1 ho
        obtain ⟨m, hm, hkey, hvalue⟩ := hmembers o hmem
        show fs.Reads o.1 (.ofValue o.2) t
        rw [← hkey]
        exact Fields.reads_of_mem_writeMembers hnodup h hm hvalue
      others := fun o ho hname => by
        obtain ⟨o, hmem, rfl⟩ := List.mem_map.1 ho
        exact absurd (hnames.mem_iff.1 (List.mem_map.2 ⟨o, hmem, rfl⟩)) hname
      complete := Fields.complete_of_subset (fun name hname => by
        rw [hkeys]
        exact hnames.mem_iff.2 hname) t }
  show (Codec.record fs strict contents make?).read (.object (Node.ofMembers os) none) = _
  rw [Node.ofMembers_eq_named, Codec.read_record hnodup hamong, hmake]
  rfl

/-- Records are read back if their fields are and their contents make them up. -/
theorem Codec.Lawful.record {fs : Fields τ} (hlawful : fs.Lawful) {strict : Bool} {contents : α → τ}
    {make? : τ → Option α} (h : ∀ a, make? (contents a) = some a) :
    (Codec.record fs strict contents make?).Lawful :=
  fun a => Codec.tells_record hlawful.nodup (hlawful.tells (contents a)) (h a)

end UserDirectory.Json
