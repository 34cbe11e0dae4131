import UserDirectory.Proofs.Json.Scalars
/-!
# Reading texts of the format

Every text of the grammar is read as the node it stands for.  The induction is on how the text is made
up; there is fuel for three steps a character.

Main statements:
  * `Spells.isRead`: what is read from a text of a part;
  * `Document.ofText_of_spells`: what is read from a text that has blanks around it;
  * `Document.ofText_of_renders`: the same for the texts of a value.
-/

namespace UserDirectory.Json

open UserDirectory.Text
open UserDirectory.Text.Utf8 (Symbol)

/-! ## §1. Beginnings and ends. -/

/-- A scalar begins with what a value can begin with. -/
theorem Scalar.begins {cs : List Char} (h : Scalar cs) : ∃ c more, cs = c :: more ∧ Begins c := by
  cases h with
  | null => exact ⟨_, _, rfl, by decide, by decide, by decide⟩
  | true_ => exact ⟨_, _, rfl, by decide, by decide, by decide⟩
  | false_ => exact ⟨_, _, rfl, by decide, by decide, by decide⟩
  | text h => exact ⟨_, _, rfl, by decide, by decide, by decide⟩
  | number h =>
    cases h with
    | mk hsign hwhole hzero hfraction hexponent =>
      simp only [List.mem_cons, List.not_mem_nil, or_false] at hsign
      rcases hsign with rfl | rfl
      · obtain ⟨c, ds, rfl⟩ := List.exists_cons_of_ne_nil hwhole.1
        have hdigit : Decimal.digit? c = some (c.toNat - 48) :=
          if_pos (hwhole.2 c List.mem_cons_self)
        exact ⟨_, _, rfl, begins_of_digit? hdigit⟩
      · exact ⟨_, _, rfl, by decide, by decide, by decide⟩

/-- A text of a value begins with what a value can begin with. -/
theorem Spells.begins {n : Node} {cs : List Char} (h : Spells (.value n) cs) :
    ∃ c more, cs = c :: more ∧ Begins c := by
  cases h with
  | scalar h => exact h.begins
  | array h => exact ⟨_, _, rfl, by decide, by decide, by decide⟩
  | object h => exact ⟨_, _, rfl, by decide, by decide, by decide⟩

/-- Blanks, a comma or a bracket end a number. -/
theorem stops_of_gap {g : List Char} (hg : Gap g) {rest : List Symbol} (hrest : Stops rest) :
    Stops (g.map some ++ rest) := by
  cases g with
  | nil => exact hrest
  | cons c g =>
    intro s more heq
    obtain ⟨rfl, _⟩ := List.cons.inj heq
    have hc := hg c List.mem_cons_self
    unfold isGap at hc
    simp only [Bool.or_eq_true, beq_iff_eq, Option.some.injEq] at hc
    rcases hc with ((rfl | rfl) | rfl) | rfl
    all_goals exact ⟨fun c h => by cases h; decide, by decide, by decide⟩

theorem stops_cons {c : Char} (hdigit : Decimal.digit? c = none) (hpoint : c ≠ '.')
    (hmark : isExponentMark (some c) = false) (rest : List Symbol) : Stops (some c :: rest) := by
  intro s more heq
  obtain ⟨rfl, _⟩ := List.cons.inj heq
  refine ⟨fun d h => ?_, fun h => hpoint (Option.some.inj h), hmark⟩
  cases h
  exact hdigit

/-- What follows a value in an array ends a number. -/
theorem Spells.stops_items {l : List Node} {cs : List Char} (h : Spells (.items false l) cs)
    (rest : List Symbol) : Stops (cs.map some ++ rest) := by
  cases h with
  | items_nil hg =>
    rw [List.map_append, List.append_assoc]
    exact stops_of_gap hg (stops_cons (by decide) (by decide) (by decide) _)
  | items_cons hg hg₁ hn hmore =>
    rw [List.map_append, List.append_assoc]
    exact stops_of_gap hg (stops_cons (by decide) (by decide) (by decide) _)

/-- What follows a value in an object ends a number. -/
theorem Spells.stops_members {l : List (Reading String × Node)} {cs : List Char}
    (h : Spells (.members false l) cs) (rest : List Symbol) : Stops (cs.map some ++ rest) := by
  cases h with
  | members_nil hg =>
    rw [List.map_append, List.append_assoc]
    exact stops_of_gap hg (stops_cons (by decide) (by decide) (by decide) _)
  | members_cons hg hg₁ hks hg₂ hg₃ hn hmore =>
    rw [List.map_append, List.append_assoc]
    exact stops_of_gap hg (stops_cons (by decide) (by decide) (by decide) _)

/-- A text of a part is not empty. -/
theorem Spells.length_pos {p : NodePart} {cs : List Char} (h : Spells p cs) : 0 < cs.length := by
  cases p with
  | value n =>
    obtain ⟨c, more, rfl, _⟩ := h.begins
    exact Nat.succ_pos _
  | items first l =>
    cases h with
    | items_nil hg => simp
    | items_cons hg hg₁ hn hmore =>
      obtain ⟨c, more, rfl, _⟩ := hn.begins
      simp only [List.length_append, List.length_cons]
      omega
  | members first l =>
    cases h with
    | members_nil hg => simp
    | members_cons hg hg₁ hks hg₂ hg₃ hn hmore =>
      simp only [List.length_append, List.length_cons]
      omega

/-! ## §2. One step. -/

/-- The items after the first that is due are read. -/
theorem readItems_cons (first : Bool) {g g₁ : List Char} (hg : Gap g) (hg₁ : Gap g₁) {c : Char}
    (hc : Begins c) (fuel : Nat) (cs : List Symbol) :
    readItems (fuel + 1) first
        (g.map some ++ ((announced first).map some ++ (g₁.map some ++ some c :: cs)))
      = readItem fuel (some c :: cs) := by
  obtain ⟨hgap, hbracket, hcomma⟩ := hc
  have hskip : skipGaps (g₁.map some ++ some c :: cs) = some c :: cs := by
    rw [skipGaps_gap hg₁, skipGaps_cons hgap]
  cases first with
  | true =>
    have hannounced : (announced true).map some ++ (g₁.map some ++ some c :: cs)
        = g₁.map some ++ some c :: cs := rfl
    unfold readItems
    rw [skipGaps_gap hg, hannounced, hskip]
    split
    · rename_i heq
      cases heq
    · rename_i heq
      cases heq
      exact absurd rfl hbracket
    · rfl
  | false =>
    have hannounced : skipGaps ((announced false).map some ++ (g₁.map some ++ some c :: cs))
        = some ',' :: (g₁.map some ++ some c :: cs) := rfl
    unfold readItems
    rw [skipGaps_gap hg, hannounced]
    conv => lhs; whnf
    rw [hskip]
    split
    · rename_i heq
      cases heq
    · rename_i heq
      cases heq
      exact absurd rfl hbracket
    · rfl

/-- The members after the first that is due are read. -/
theorem readMembers_cons (first : Bool) {g g₁ : List Char} (hg : Gap g) (hg₁ : Gap g₁) (fuel : Nat)
    (cs : List Symbol) :
    readMembers (fuel + 1) first
        (g.map some ++ ((announced first).map some ++ (g₁.map some ++ some '"' :: cs)))
      = readMember fuel cs := by
  have hskip : skipGaps (g₁.map some ++ some '"' :: cs) = some '"' :: cs := by
    rw [skipGaps_gap hg₁, skipGaps_cons (by decide)]
  cases first with
  | true =>
    have hannounced : (announced true).map some ++ (g₁.map some ++ some '"' :: cs)
        = g₁.map some ++ some '"' :: cs := rfl
    unfold readMembers
    rw [skipGaps_gap hg, hannounced, hskip]
    rfl
  | false =>
    have hannounced : skipGaps ((announced false).map some ++ (g₁.map some ++ some '"' :: cs))
        = some ',' :: (g₁.map some ++ some '"' :: cs) := rfl
    unfold readMembers
    rw [skipGaps_gap hg, hannounced]
    conv => lhs; whnf
    rw [hskip]
    rfl

/-- One member is read, and those after it. -/
theorem readMember_cons {ks : List Char} {n : Node} {g g₁ cs : List Char} (hks : Letters ks)
    (hg : Gap g) (hg₁ : Gap g₁) {fuel : Nat} {rest : List Symbol}
    (hn : readNode fuel (cs.map some ++ rest) = (n, some rest)) :
    readMember (fuel + 1) (ks.map some ++ some '"'
        :: (g.map some ++ some ':' :: (g₁.map some ++ (cs.map some ++ rest))))
      = (let (members, ending, more) := readMembers fuel false rest
        ((lettersReading ks, n) :: members, ending, more)) := by
  unfold readMember
  rw [readText_letters hks]
  simp only
  rw [skipGaps_gap hg, skipGaps_cons (by decide)]
  simp only
  rw [readNode_gap hg₁, hn]

/-! ## §3. Parts. -/

/-- What is read from a text of a part: a value, items or members as they are. -/
def NodePart.IsRead (cs : List Char) : NodePart → Prop
  | .value n => ∀ fuel rest, 3 * cs.length ≤ fuel → Stops rest →
      readNode fuel (cs.map some ++ rest) = (n, some rest)
  | .items first l => ∀ fuel rest, 3 * cs.length ≤ fuel →
      readItems fuel first (cs.map some ++ rest) = (l, none, some rest)
  | .members first l => ∀ fuel rest, 3 * cs.length ≤ fuel →
      readMembers fuel first (cs.map some ++ rest) = (l, none, some rest)

/-- A part that is not empty takes some fuel. -/
theorem exists_fuel {n fuel : Nat} (hn : 0 < n) (h : 3 * n ≤ fuel) :
    ∃ m, fuel = m + 1 + 1 + 1 ∧ 3 * (n - 1) ≤ m :=
  ⟨fuel - 3, by omega, by omega⟩

section

variable {first : Bool} {g g₁ cs ds : List Char} {n : Node}

/-- An array is read if its items are. -/
theorem isRead_array {items : List Node} (h : Spells (.items true items) cs)
    (ih : (NodePart.items true items).IsRead cs) :
    (NodePart.value (.array items none)).IsRead ('[' :: cs) := by
  intro fuel rest hfuel _
  obtain ⟨m, rfl, _⟩ := exists_fuel (Spells.array h).length_pos hfuel
  have hstep : readNode (m + 1 + 1 + 1) (('[' :: cs).map some ++ rest)
      = (let r := readItems (m + 1 + 1) true (cs.map some ++ rest);
        (.array r.1 r.2.1, r.2.2)) := rfl
  rw [List.length_cons] at hfuel
  rw [hstep, ih (m + 1 + 1) rest (by omega)]

/-- An object is read if its members are. -/
theorem isRead_object {members : List (Reading String × Node)} (h : Spells (.members true members) cs)
    (ih : (NodePart.members true members).IsRead cs) :
    (NodePart.value (.object members none)).IsRead ('\x7b' :: cs) := by
  intro fuel rest hfuel _
  obtain ⟨m, rfl, _⟩ := exists_fuel (Spells.object h).length_pos hfuel
  have hstep : readNode (m + 1 + 1 + 1) (('\x7b' :: cs).map some ++ rest)
      = (let r := readMembers (m + 1 + 1) true (cs.map some ++ rest);
        (.object r.1 r.2.1, r.2.2)) := rfl
  rw [List.length_cons] at hfuel
  rw [hstep, ih (m + 1 + 1) rest (by omega)]

/-- The end of an array is read. -/
theorem isRead_items_nil (first : Bool) (hg : Gap g) :
    (NodePart.items first []).IsRead (g ++ [']']) := by
  intro fuel rest hfuel
  rw [List.length_append, List.length_singleton] at hfuel
  obtain ⟨m, rfl⟩ : ∃ m, fuel = m + 1 := ⟨fuel - 1, by omega⟩
  rw [List.map_append, List.append_assoc]
  have hskip : skipGaps ([']'].map some ++ rest) = some ']' :: rest := skipGaps_cons (by decide) rest
  unfold readItems
  rw [skipGaps_gap hg, hskip]
  rfl

/-- Items are read if the first is and those after it are. -/
theorem isRead_items_cons {more : List Node} (hg : Gap g) (hg₁ : Gap g₁)
    (hn : Spells (.value n) cs) (hmore : Spells (.items false more) ds)
    (ihn : (NodePart.value n).IsRead cs) (ihmore : (NodePart.items false more).IsRead ds) :
    (NodePart.items first (n :: more)).IsRead (g ++ (announced first ++ (g₁ ++ (cs ++ ds)))) := by
  intro fuel rest hfuel
  have hnpos := hn.length_pos
  have hpos := hmore.length_pos
  simp only [List.length_append] at hfuel
  -- one step finds the item, another reads it
  obtain ⟨m, rfl⟩ : ∃ m, fuel = m + 1 + 1 := ⟨fuel - 2, by omega⟩
  obtain ⟨c, tail, hcs, hbegins⟩ := hn.begins
  have hvalue := ihn m (ds.map some ++ rest) (by omega) (hmore.stops_items rest)
  have htail := ihmore m rest (by omega)
  have hitem := readItems_cons first hg hg₁ hbegins (m + 1)
    (tail.map some ++ (ds.map some ++ rest))
  simp only [List.map_append, List.append_assoc]
  rw [hcs] at hvalue ⊢
  refine hitem.trans ?_
  unfold readItem
  rw [show some c :: (tail.map some ++ (ds.map some ++ rest))
    = (c :: tail).map some ++ (ds.map some ++ rest) from rfl, hvalue]
  simp only
  rw [htail]

/-- The end of an object is read. -/
theorem isRead_members_nil (first : Bool) (hg : Gap g) :
    (NodePart.members first []).IsRead (g ++ ['\x7d']) := by
  intro fuel rest hfuel
  rw [List.length_append, List.length_singleton] at hfuel
  obtain ⟨m, rfl⟩ : ∃ m, fuel = m + 1 := ⟨fuel - 1, by omega⟩
  rw [List.map_append, List.append_assoc]
  have hskip : skipGaps (['\x7d'].map some ++ rest) = some '\x7d' :: rest :=
    skipGaps_cons (by decide) rest
  unfold readMembers
  rw [skipGaps_gap hg, hskip]
  rfl

/-- Members are read if the value of the first is and those after it are. -/
theorem isRead_members_cons {ks : List Char} {more : List (Reading String × Node)}
    {g₂ g₃ : List Char} (hg : Gap g) (hg₁ : Gap g₁) (hks : Letters ks) (hg₂ : Gap g₂) (hg₃ : Gap g₃)
    (hn : Spells (.value n) cs) (hmore : Spells (.members false more) ds)
    (ihn : (NodePart.value n).IsRead cs) (ihmore : (NodePart.members false more).IsRead ds) :
    (NodePart.members first ((lettersReading ks, n) :: more)).IsRead
      (g ++ (announced first
        ++ (g₁ ++ ('"' :: (ks ++ '"' :: (g₂ ++ ':' :: (g₃ ++ (cs ++ ds)))))))) := by
  intro fuel rest hfuel
  have hnpos := hn.length_pos
  have hpos := hmore.length_pos
  simp only [List.length_append, List.length_cons] at hfuel
  -- one step finds the name, another reads the member
  obtain ⟨m, rfl⟩ : ∃ m, fuel = m + 1 + 1 := ⟨fuel - 2, by omega⟩
  have hvalue := ihn m (ds.map some ++ rest) (by omega) (hmore.stops_members rest)
  have htail := ihmore m rest (by omega)
  have hmember := readMembers_cons first hg hg₁ (m + 1)
    (ks.map some ++ some '"' :: (g₂.map some ++ some ':'
      :: (g₃.map some ++ (cs.map some ++ (ds.map some ++ rest)))))
  simp only [List.map_append, List.map_cons, List.append_assoc, List.cons_append]
  refine hmember.trans ?_
  rw [readMember_cons hks hg₂ hg₃ hvalue, htail]

end

/-- A text of a part is read as that part. -/
theorem Spells.isRead {p : NodePart} {cs : List Char} (h : Spells p cs) : p.IsRead cs := by
  induction h with
  | scalar h =>
    intro fuel rest hfuel hrest
    obtain ⟨m, rfl, _⟩ := exists_fuel (Spells.scalar h).length_pos hfuel
    exact h.isRead _ hrest
  | array h ih => exact isRead_array h ih
  | object h ih => exact isRead_object h ih
  | items_nil hg => exact isRead_items_nil _ hg
  | items_cons hg hg₁ hn hmore ihn ihmore => exact isRead_items_cons hg hg₁ hn hmore ihn ihmore
  | members_nil hg => exact isRead_members_nil _ hg
  | members_cons hg hg₁ hks hg₂ hg₃ hn hmore ihn ihmore =>
    exact isRead_members_cons hg hg₁ hks hg₂ hg₃ hn hmore ihn ihmore

/-! ## §4. Whole texts. -/

/-- What is read from a text that has blanks around it. -/
theorem Document.ofText_of_spells {n : Node} {g cs g₁ : List Char} (hg : Gap g)
    (h : Spells (.value n) cs) (hg₁ : Gap g₁) :
    Document.ofText (String.ofList (g ++ (cs ++ g₁))) = ⟨n, none⟩ := by
  have hend : Stops (g₁.map some) := by
    have hstops := stops_of_gap hg₁ stops_nil
    rwa [List.append_nil] at hstops
  have hgap : skipGaps (g₁.map some) = [] := by
    have := skipGaps_gap hg₁ []
    rwa [List.append_nil] at this
  unfold ofText ofSymbols
  rw [String.toList_ofList, List.map_append, List.map_append, readNode_gap hg,
    h.isRead _ _ (by simp only [List.length_append, List.length_map]; omega) hend]
  simp only
  rw [hgap]
  rfl

/-- The fault that is met by who passes over a part. -/
def NodePart.skip : NodePart → Option Fault
  | .value n => n.skip
  | .items _ l => Node.skipItems l none
  | .members _ l => Node.skipMembers l none

/-- What a text stands for can be passed over. -/
theorem Spells.skip_eq_none {p : NodePart} {cs : List Char} (h : Spells p cs) : p.skip = none := by
  induction h with
  | scalar h => exact h.skip_alone
  | array h ih => exact ih
  | object h ih => exact ih
  | items_nil hg => rfl
  | @items_cons _ n more _ _ _ _ hg hg₁ hn hmore ihn ihmore =>
    show n.skip.or (Node.skipItems more none) = none
    rw [show n.skip = none from ihn, show Node.skipItems more none = none from ihmore]
    rfl
  | members_nil hg => rfl
  | @members_cons _ ks n more _ _ _ _ _ _ hg hg₁ hks hg₂ hg₃ hn hmore ihn ihmore =>
    show (lettersReading ks).skipped.or (n.skip.or (Node.skipMembers more none)) = none
    rw [skipped_lettersReading hks, show n.skip = none from ihn,
      show Node.skipMembers more none = none from ihmore]
    rfl

/-! ## §5. The texts of a value. -/

/-- A part as nodes. -/
def Part.nodes : Part → NodePart
  | .value v => .value (.ofValue v)
  | .items first l => .items first (Node.ofItems l)
  | .members first l => .members first (Node.ofMembers l)

/-- A name may be written as any text is. -/
theorem Spells.named_cons {first : Bool} {k : String} {n : Node} {more : List (Reading String × Node)}
    {g g₁ g₂ g₃ cs ds : List Char} (hg : Gap g) (hg₁ : Gap g₁) (hg₂ : Gap g₂) (hg₃ : Gap g₃)
    (hn : Spells (.value n) cs) (hmore : Spells (.members false more) ds) :
    Spells (.members first ((.ok k, n) :: more))
      (g ++ (announced first ++ (g₁ ++ (quote k ++ (g₂ ++ ':' :: (g₃ ++ (cs ++ ds))))))) := by
  have h := @Spells.members_cons first _ _ _ _ _ _ _ _ _ hg hg₁ (letters_flatMap_escape k.toList)
    hg₂ hg₃ hn hmore
  rw [lettersReading_escape] at h
  unfold quote
  simp only [List.cons_append, List.append_assoc, List.nil_append]
  exact h

/-- The texts of a value are texts of its node. -/
theorem Renders.spells {p : Part} {cs : List Char} (h : Renders p cs) : Spells p.nodes cs := by
  induction h with
  | null => exact .scalar .null
  | false_ => exact .scalar .false_
  | true_ => exact .scalar .true_
  | int n =>
    have h := Spells.scalar (.number (numeral_writeInt n))
    rwa [alone_writeInt] at h
  | string s =>
    have h : Spells (.value (.alone (quote s))) (quote s) :=
      .scalar (.text (letters_flatMap_escape s.toList))
    rwa [alone_quote] at h
  | array h ih => exact .array ih
  | object h ih => exact .object ih
  | items_nil hg => exact .items_nil hg
  | items_cons hg hg₁ hv hmore ihv ihmore => exact .items_cons hg hg₁ ihv ihmore
  | members_nil hg => exact .members_nil hg
  | members_cons hg hg₁ hg₂ hg₃ hv hmore ihv ihmore =>
    exact .named_cons hg hg₁ hg₂ hg₃ ihv ihmore

/-- What is read from a text of a value that has blanks around it. -/
theorem Document.ofText_of_renders {v : Value} {g cs g₁ : List Char} (hg : Gap g)
    (h : Renders (.value v) cs) (hg₁ : Gap g₁) :
    Document.ofText (String.ofList (g ++ (cs ++ g₁))) = ⟨.ofValue v, none⟩ :=
  Document.ofText_of_spells hg h.spells hg₁

end UserDirectory.Json
