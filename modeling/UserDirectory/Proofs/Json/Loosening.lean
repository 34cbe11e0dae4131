import UserDirectory.Proofs.Json.Codec
/-!
# Objects that are written more loosely

Who writes an object may give its members in another order, add members that nobody knows, and leave
out those that are null.  Where the type of a value says so, this may be done at any depth; what is
plain is at most rearranged.

A codec is lenient if it reads all of these as the value that was written, as long as what was added can
be passed over.  What is built of lenient codecs is lenient.

Main statements:
  * `Codec.Lawful.lenient`, `Codec.Lenient.option`, `Codec.Lenient.list`, `Codec.Lenient.record`.
-/

namespace UserDirectory.Json

variable {α β τ : Type}

/-! ## §1. Looser forms. -/

/-- How the values of a type are laid out, as far as it matters what may be loosened: a field may be
left out where it is an option. -/
inductive Shape
  | plain
  | option (s : Shape)
  | list (s : Shape)
  | record (fields : List (String × Shape))

mutual

/-- What may come for a value of a shape. -/
inductive Loosens : Shape → Value → Node → Prop
  | plain {v w : Value} (h : Rearranged v w) : Loosens .plain v (.ofValue w)
  | missing {s : Shape} : Loosens (.option s) .null .null
  | there {s : Shape} {v : Value} {n : Node} (hv : v ≠ .null) (h : Loosens s v n) :
      Loosens (.option s) v n
  | list {s : Shape} {vs : List Value} {ns : List Node} (h : LoosensItems s vs ns) :
      Loosens (.list s) (.array vs) (.array ns none)
  | record {fields : List (String × Shape)} {ms : List (String × Value)}
      {kept others all : List (String × Node)} (h : LoosensFields fields ms kept)
      (hothers : ∀ o ∈ others, o.1 ∉ fields.map (·.1)) (hall : (kept ++ others).Perm all) :
      Loosens (.record fields) (.object ms) (.object (Node.named all) none)

/-- What may come for the items of a list: as many, and each for its own. -/
inductive LoosensItems : Shape → List Value → List Node → Prop
  | nil {s : Shape} : LoosensItems s [] []
  | cons {s : Shape} {v : Value} {vs : List Value} {n : Node} {ns : List Node} (h : Loosens s v n)
      (hrest : LoosensItems s vs ns) : LoosensItems s (v :: vs) (n :: ns)

/-- Which members may come for the fields of a record: an option that is null may be left. -/
inductive LoosensFields : List (String × Shape) → List (String × Value) → List (String × Node) → Prop
  | nil : LoosensFields [] [] []
  | keep {name : String} {s : Shape} {fields : List (String × Shape)} {v : Value}
      {ms : List (String × Value)} {n : Node} {kept : List (String × Node)} (h : Loosens s v n)
      (hrest : LoosensFields fields ms kept) :
      LoosensFields ((name, s) :: fields) ((name, v) :: ms) ((name, n) :: kept)
  | leave {name : String} {s : Shape} {fields : List (String × Shape)} {ms : List (String × Value)}
      {kept : List (String × Node)} (hrest : LoosensFields fields ms kept) :
      LoosensFields ((name, .option s) :: fields) ((name, .null) :: ms) kept

end

/-- What is there does not come as null. -/
theorem Loosens.ne_null : {s : Shape} → {v : Value} → {n : Node} → Loosens s v n → v ≠ .null → n ≠ .null
  | _, _, _, .plain h, hv => Codec.ofValue_ne_null h hv
  | _, _, _, .missing, hv => absurd rfl hv
  | _, _, _, .there _ h, hv => h.ne_null hv
  | _, _, _, .list _, _ => Node.noConfusion
  | _, _, _, .record .., _ => Node.noConfusion

/-- A field comes with its member, or it is an option that is null and has been left. -/
theorem LoosensFields.first {name name' : String} {s : Shape} {fields : List (String × Shape)}
    {v : Value} {ms : List (String × Value)} {kept : List (String × Node)}
    (h : LoosensFields ((name, s) :: fields) ((name', v) :: ms) kept) :
    (∃ n more, kept = (name, n) :: more ∧ Loosens s v n ∧ LoosensFields fields ms more)
      ∨ ((∃ s', s = .option s') ∧ v = .null ∧ LoosensFields fields ms kept) := by
  cases h with
  | keep h hrest => exact .inl ⟨_, _, rfl, h, hrest⟩
  | leave hrest => exact .inr ⟨⟨_, rfl⟩, rfl, hrest⟩

/-! ## §2. What can be passed over. -/

/-- Items can be passed over if the first can and those after it can. -/
theorem Node.skipItems_cons {n : Node} {more : List Node} :
    Node.skipItems (n :: more) none = none ↔ n.skip = none ∧ Node.skipItems more none = none :=
  Option.or_eq_none_iff

/-- Members that can be passed over have values that can. -/
theorem Node.skip_of_mem_named {os : List (String × Node)}
    (h : Node.skipMembers (Node.named os) none = none) : ∀ o ∈ os, o.2.skip = none := by
  induction os with
  | nil =>
    intro o ho
    cases ho
  | cons o os ih =>
    obtain ⟨_, hrest⟩ := Option.or_eq_none_iff.1 h
    obtain ⟨hfirst, hrest⟩ := Option.or_eq_none_iff.1 hrest
    intro o' ho
    rcases List.mem_cons.1 ho with rfl | ho
    · exact hfirst
    · exact ih hrest o' ho

/-! ## §3. Lenient codecs. -/

/-- What is written has the shape, and whatever looser form comes is read back. -/
structure Codec.Lenient (c : Codec α) (s : Shape) : Prop where
  fits : ∀ a, Loosens s (c.write a) (.ofValue (c.write a))
  reads : ∀ a n, Loosens s (c.write a) n → n.skip = none → c.read n = .ok a

namespace Codec

/-- What is plain is only rearranged. -/
theorem Lawful.lenient {c : Codec α} (h : c.Lawful) : c.Lenient .plain where
  fits a := .plain (.refl _)
  reads a n hn _ := by
    cases hn with
    | plain hw => exact h a _ hw

/-- An option is read if what is there is not written as null. -/
theorem Lenient.option {c : Codec α} {s : Shape} (h : c.Lenient s) (hnull : ∀ a, c.write a ≠ .null) :
    c.option.Lenient (.option s) where
  fits a := by
    cases a with
    | none => exact .missing
    | some a => exact .there (hnull a) (h.fits a)
  reads a n hn hskip := by
    cases a with
    | none =>
      cases hn with
      | missing => rfl
      | there hv => exact absurd rfl hv
    | some a =>
      have hthere : Loosens s (c.write a) n := by
        change Loosens (.option s) (c.write a) n at hn
        generalize hv : c.write a = v at hn
        cases hn with
        | missing => exact absurd hv (hnull a)
        | there _ hn => exact hn
      rw [option_read (hthere.ne_null (hnull a)), h.reads a n hthere hskip]
      rfl

/-- Lists are read if their items are. -/
theorem Lenient.list {c : Codec α} {s : Shape} (h : c.Lenient s) : (list c).Lenient (.list s) where
  fits as := by
    refine .list ?_
    induction as with
    | nil => exact .nil
    | cons a as ih => exact .cons (h.fits a) ih
  reads as n hn hskip := by
    cases hn with
    | @list _ _ ns hitems =>
      show readAll c.read ns none = .ok as
      change Node.skipItems ns none = none at hskip
      induction as generalizing ns with
      | nil =>
        cases hitems
        rfl
      | cons a as ih =>
        cases hitems with
        | @cons _ _ _ n ns hn hitems =>
          obtain ⟨hfirst, hrest⟩ := Node.skipItems_cons.1 hskip
          unfold readAll
          rw [h.reads a n hn hfirst]
          simp only [bind, Except.bind]
          rw [ih hitems hrest]
          rfl

end Codec

/-! ## §4. Fields. -/

/-- A field of a record is loosened as the shape under its name says.  Where it may be left out, it is
missing if it would be written as null. -/
structure Field.Lenient (f : Field β) (name : String) (s : Shape) : Prop where
  name : f.name = name
  codec : f.codec.Lenient s
  left : ∀ s' b, s = .option s' → f.codec.write b = .null → f.absent = some b

/-- What is no option cannot be left out. -/
def Shape.isOption : Shape → Bool
  | .option _ => true
  | _ => false

namespace Field.Lenient

/-- A field that may not be left out. -/
theorem of_codec {f : Field β} {s : Shape} (h : f.codec.Lenient s) (hs : s.isOption = false) :
    f.Lenient f.name s where
  name := rfl
  codec := h
  left s' b heq _ := by
    rw [heq] at hs
    cases hs

/-- A field that is plain. -/
theorem plain {f : Field β} (h : f.codec.Lawful) : f.Lenient f.name .plain :=
  of_codec h.lenient rfl

/-- A field that may be left out. -/
theorem option {name : String} {c : Codec β} {s : Shape} (h : c.Lenient s)
    (hnull : ∀ b, c.write b ≠ .null) : (Field.optional name c).Lenient name (.option s) where
  name := rfl
  codec := h.option hnull
  left s' b _ hb := by
    cases b with
    | none => rfl
    | some b => exact absurd hb (hnull b)

end Field.Lenient

namespace Fields

/-- Each field is loosened as the shape under its name says. -/
inductive Lenient : {τ : Type} → Fields τ → List (String × Shape) → Prop
  | nil : Lenient .nil []
  | cons {β τ : Type} {f : Field β} {rest : Fields τ} {name : String} {s : Shape}
      {more : List (String × Shape)} (hf : f.Lenient name s) (hrest : Lenient rest more) :
      Lenient (.cons f rest) ((name, s) :: more)

theorem Lenient.names {fs : Fields τ} {fields : List (String × Shape)} (h : fs.Lenient fields) :
    fields.map (·.1) = fs.names := by
  induction h with
  | nil => rfl
  | cons hf hrest ih =>
    rw [List.map_cons, ih, ← hf.name]
    rfl

/-- What is written has the shapes. -/
theorem Lenient.fits {fs : Fields τ} {fields : List (String × Shape)} (h : fs.Lenient fields) (t : τ) :
    LoosensFields fields (fs.writeMembers t) ((fs.writeMembers t).map fun m => (m.1, .ofValue m.2)) := by
  induction h with
  | nil => exact .nil
  | cons hf hrest ih =>
    rw [← hf.name]
    exact .keep (hf.codec.fits t.1) (ih t.2)

/-- What may come for the fields of a record: some of them, each once and read as what the field
holds; and those that do not come hold what they hold when they are missing. -/
theorem Lenient.reads {fs : Fields τ} (hnodup : fs.names.Nodup) {fields : List (String × Shape)}
    (h : fs.Lenient fields) {t : τ} {kept : List (String × Node)}
    (hkept : LoosensFields fields (fs.writeMembers t) kept) (hskip : ∀ o ∈ kept, o.2.skip = none) :
    (kept.map (·.1)).Sublist fs.names ∧ (∀ o ∈ kept, fs.Reads o.1 o.2 t)
      ∧ fs.Complete (kept.map (·.1)) t := by
  induction h generalizing kept with
  | nil =>
    cases hkept
    exact ⟨.slnil, List.forall_mem_nil _, trivial⟩
  | @cons _ _ f rest name s more hf hrest ih =>
    obtain ⟨b, t⟩ := t
    obtain ⟨hname, hnodup⟩ := List.nodup_cons.1 hnodup
    -- a member of a later field is no member of this one
    have hlater {n : Node} {other : String} (hother : other ∈ rest.names) (hread : rest.Reads other n t) :
        (Fields.cons f rest).Reads other n (b, t) := by
      unfold Reads
      rw [if_neg fun (heq : f.name = other) => hname (heq ▸ hother)]
      exact hread
    rcases hkept.first with ⟨n, kept, rfl, hn, hkept⟩ | ⟨⟨s', rfl⟩, hnull, hkept⟩
    · obtain ⟨hsub, hreads, hcomplete⟩ := ih hnodup hkept fun o ho =>
        hskip o (List.mem_cons_of_mem _ ho)
      rw [← hf.name] at hskip ⊢
      refine ⟨hsub.cons_cons _, fun o ho => ?_, .inl List.mem_cons_self, ?_⟩
      · rcases List.mem_cons.1 ho with rfl | ho
        · unfold Reads
          rw [if_pos rfl]
          exact hf.codec.reads b n hn (hskip _ List.mem_cons_self)
        · exact hlater (hsub.subset (List.mem_map.2 ⟨o, ho, rfl⟩)) (hreads o ho)
      · exact hcomplete.mono fun other hother => List.mem_cons_of_mem _ hother
    · obtain ⟨hsub, hreads, hcomplete⟩ := ih hnodup hkept hskip
      refine ⟨hsub.cons _, fun o ho => ?_, .inr (hf.left s' b rfl hnull), hcomplete⟩
      exact hlater (hsub.subset (List.mem_map.2 ⟨o, ho, rfl⟩)) (hreads o ho)

end Fields

/-! ## §5. Records. -/

/-- Members among which the fields of a record are, in whatever order they come and whatever unknown
ones come with them. -/
theorem Fields.among_of_perm {fs : Fields τ} (hnodup : fs.names.Nodup) {t : τ}
    {kept others all : List (String × Node)} (hsub : (kept.map (·.1)).Sublist fs.names)
    (hreads : ∀ o ∈ kept, fs.Reads o.1 o.2 t) (hcomplete : fs.Complete (kept.map (·.1)) t)
    (hothers : ∀ o ∈ others, o.1 ∉ fs.names) (hall : (kept ++ others).Perm all)
    (hskip : ∀ o ∈ all, o.2.skip = none) : fs.Among false all t := by
  have hmem {o : String × Node} (ho : o ∈ all) : o ∈ kept ∨ o ∈ others :=
    List.mem_append.1 (hall.mem_iff.2 ho)
  refine { once := ?_, reads := fun o ho hname => ?_, others := fun o ho hname => ?_, complete := ?_ }
  · have hkept : kept.Pairwise fun o o' => o.1 = o'.1 → o.1 ∉ fs.names :=
      (List.pairwise_map.1 (hnodup.sublist hsub)).imp fun hne heq => absurd heq hne
    have hrest : others.Pairwise fun o o' => o.1 = o'.1 → o.1 ∉ fs.names :=
      List.pairwise_of_forall_mem_list fun o ho o' _ _ => hothers o ho
    have hsymm {o o' : String × Node} (h : o.1 = o'.1 → o.1 ∉ fs.names) (heq : o'.1 = o.1) :
        o'.1 ∉ fs.names := by
      rw [heq]
      exact h heq.symm
    refine (hall.pairwise_iff hsymm).1 ?_
    exact List.pairwise_append.2 ⟨hkept, hrest, fun o _ o' ho' heq hname => hothers o' ho' (heq ▸ hname)⟩
  · rcases hmem ho with ho | ho
    · exact hreads o ho
    · exact absurd hname (hothers o ho)
  · exact ⟨rfl, hskip o ho⟩
  · refine hcomplete.mono fun name hname => ?_
    obtain ⟨o, ho, rfl⟩ := List.mem_map.1 hname
    exact List.mem_map.2 ⟨o, hall.mem_iff.1 (List.mem_append_left _ ho), rfl⟩

/-- Records are read if their fields are and their contents make them up. -/
theorem Codec.Lenient.record {fs : Fields τ} {fields : List (String × Shape)} (hnodup : fs.names.Nodup)
    (h : fs.Lenient fields) {contents : α → τ} {make? : τ → Option α}
    (hmake : ∀ a, make? (contents a) = some a) :
    (Codec.record fs false contents make?).Lenient (.record fields) where
  fits a := by
    show Loosens (.record fields) (.object (fs.writeMembers (contents a)))
      (.object (Node.ofMembers (fs.writeMembers (contents a))) none)
    rw [Node.ofMembers_eq_named]
    refine .record (h.fits (contents a)) (List.forall_mem_nil _) ?_
    rw [List.append_nil]
  reads a n hn hskip := by
    change Loosens (.record fields) (.object (fs.writeMembers (contents a))) n at hn
    cases hn with
    | @record _ _ kept others all hkept hothers hall =>
      have hskips := Node.skip_of_mem_named hskip
      rw [h.names] at hothers
      obtain ⟨hsub, hreads, hcomplete⟩ := h.reads hnodup hkept fun o ho =>
        hskips o (hall.mem_iff.1 (List.mem_append_left _ ho))
      have hamong := Fields.among_of_perm hnodup hsub hreads hcomplete hothers hall hskips
      rw [Codec.read_record hnodup hamong, hmake a]
      rfl

end UserDirectory.Json
