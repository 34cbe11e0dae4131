/-!
# Finite maps in key order

A finite map is the list of its entries, the keys strictly ascending.  So a map has one form, and
a walk over it meets the keys in order.

Main statements:
  * `get?_insert`, `get?_erase`: what an operation does to the value found under each key;
  * `ext_get?`: maps that give the same answers are equal;
  * `mem_entries_iff`: the entries are the keys with the values found under them.
-/

namespace UserDirectory

/-- A finite map with its entries in strictly ascending order of their keys. -/
structure SortedMap (κ ν : Type) [LT κ] where
  entries : List (κ × ν)
  ascending : entries.Pairwise fun a b => a.1 < b.1

namespace SortedMap

variable {κ ν μ : Type}

section Operations

variable [LT κ]

/-- The map without entries. -/
def empty : SortedMap κ ν := ⟨[], .nil⟩

instance : Inhabited (SortedMap κ ν) := ⟨empty⟩

instance : EmptyCollection (SortedMap κ ν) := ⟨empty⟩

instance [DecidableEq κ] [DecidableEq ν] : DecidableEq (SortedMap κ ν) := fun a b =>
  decidable_of_iff (a.entries = b.entries)
    ⟨fun h => by cases a; cases b; cases h; rfl, fun h => h ▸ rfl⟩

/-- The keys, ascending. -/
def keys (m : SortedMap κ ν) : List κ := m.entries.map (·.1)

/-- The values in the order of their keys. -/
def values (m : SortedMap κ ν) : List ν := m.entries.map (·.2)

/-- The number of entries. -/
def size (m : SortedMap κ ν) : Nat := m.entries.length

/-- The value under a key. -/
def get? [DecidableEq κ] (m : SortedMap κ ν) (k : κ) : Option ν :=
  (m.entries.find? fun e => e.1 = k).map (·.2)

/-- Whether a value stands under a key. -/
def contains [DecidableEq κ] (m : SortedMap κ ν) (k : κ) : Bool :=
  (m.get? k).isSome

/-- The entries that satisfy a condition. -/
def filter (m : SortedMap κ ν) (p : κ × ν → Bool) : SortedMap κ ν :=
  ⟨m.entries.filter p, m.ascending.filter p⟩

/-- The map without a key. -/
def erase [DecidableEq κ] (m : SortedMap κ ν) (k : κ) : SortedMap κ ν :=
  m.filter fun e => e.1 ≠ k

/-- The same keys with other values. -/
def mapValues (f : ν → μ) (m : SortedMap κ ν) : SortedMap κ μ :=
  ⟨m.entries.map fun e => (e.1, f e.2), by
    have h := m.ascending
    rw [List.pairwise_map]
    exact h⟩

end Operations

section Insertion

variable [LT κ] [DecidableLT κ] [DecidableEq κ]

/-- The entries with a value put under a key, before the first greater key. -/
def insertEntry (k : κ) (v : ν) : List (κ × ν) → List (κ × ν)
  | [] => [(k, v)]
  | e :: rest =>
    if k < e.1 then (k, v) :: e :: rest
    else if k = e.1 then (k, v) :: rest
    else e :: insertEntry k v rest

theorem mem_insertEntry {k : κ} {v : ν} {l : List (κ × ν)} {e : κ × ν}
    (h : e ∈ insertEntry k v l) : e = (k, v) ∨ e ∈ l := by
  induction l with
  | nil => simpa [insertEntry] using h
  | cons d rest ih =>
    simp only [insertEntry] at h
    split at h
    · simpa using h
    · split at h
      · rcases List.mem_cons.1 h with h | h
        · exact .inl h
        · exact .inr (List.mem_cons_of_mem _ h)
      · rcases List.mem_cons.1 h with h | h
        · exact .inr (h ▸ List.mem_cons_self)
        · exact (ih h).imp id (List.mem_cons_of_mem _)

variable [LE κ] [Std.IsLinearOrder κ] [Std.LawfulOrderLT κ]

omit [DecidableLT κ] [DecidableEq κ] in
theorem lt_of_not_lt_of_ne {a b : κ} (h : ¬ a < b) (hne : a ≠ b) : b < a := by
  rcases Std.le_total (a := a) (b := b) with hab | hba
  · exact absurd (Std.lt_of_le_of_ne hab hne) h
  · exact Std.lt_of_le_of_ne hba (Ne.symm hne)

theorem pairwise_insertEntry (k : κ) (v : ν) (l : List (κ × ν))
    (h : l.Pairwise fun a b => a.1 < b.1) :
    (insertEntry k v l).Pairwise fun a b => a.1 < b.1 := by
  induction l with
  | nil => simp [insertEntry]
  | cons d rest ih =>
    obtain ⟨hd, hrest⟩ := List.pairwise_cons.1 h
    simp only [insertEntry]
    split
    · rename_i hlt
      refine List.pairwise_cons.2 ⟨fun e he => ?_, h⟩
      rcases List.mem_cons.1 he with rfl | he
      · exact hlt
      · exact Std.lt_trans hlt (hd e he)
    · rename_i hnlt
      split
      · rename_i heq
        exact List.pairwise_cons.2 ⟨fun e he => heq ▸ hd e he, hrest⟩
      · rename_i hne
        refine List.pairwise_cons.2 ⟨fun e he => ?_, ih hrest⟩
        rcases mem_insertEntry he with rfl | he
        · exact lt_of_not_lt_of_ne hnlt hne
        · exact hd e he

/-- Puts a value under a key, in place of what stood there. -/
def insert (m : SortedMap κ ν) (k : κ) (v : ν) : SortedMap κ ν :=
  ⟨insertEntry k v m.entries, pairwise_insertEntry k v m.entries m.ascending⟩

/-- The map of some entries; of two under one key the later counts. -/
def ofList (l : List (κ × ν)) : SortedMap κ ν :=
  l.foldl (fun m e => m.insert e.1 e.2) empty

end Insertion

section Lookup

variable [LT κ] [DecidableEq κ]

@[simp] theorem get?_empty (k : κ) : (empty : SortedMap κ ν).get? k = none := rfl

omit [LT κ] in
theorem find?_erase (l : List (κ × ν)) (k k' : κ) :
    ((l.filter fun e => decide (e.1 ≠ k)).find? fun e => e.1 = k')
      = if k' = k then none else l.find? fun e => e.1 = k' := by
  induction l with
  | nil => simp
  | cons d rest ih =>
    by_cases hd : d.1 = k <;> by_cases hk : k' = k <;> by_cases hdk : d.1 = k' <;>
      simp_all

/-- Erasing a key hides its value and no other. -/
theorem get?_erase (m : SortedMap κ ν) (k k' : κ) :
    (m.erase k).get? k' = if k' = k then none else m.get? k' := by
  simp only [get?, erase, filter]
  rw [find?_erase]
  split <;> simp

variable [DecidableLT κ] [LE κ] [Std.IsLinearOrder κ] [Std.LawfulOrderLT κ]

omit [LE κ] [Std.IsLinearOrder κ] [Std.LawfulOrderLT κ] in
theorem find?_insertEntry (l : List (κ × ν)) (k k' : κ) (v : ν) :
    (insertEntry k v l).find? (fun e => e.1 = k')
      = if k' = k then some (k, v) else l.find? fun e => e.1 = k' := by
  induction l with
  | nil =>
    by_cases hk : k' = k
    · simp [insertEntry, hk]
    · simp [insertEntry, hk, Ne.symm hk]
  | cons d rest ih =>
    simp only [insertEntry]
    by_cases hlt : k < d.1
    · by_cases hk : k' = k
      · simp [hlt, hk]
      · simp [hlt, List.find?_cons, hk, Ne.symm hk]
    · rw [if_neg hlt]
      by_cases heq : k = d.1
      · by_cases hk : k' = k
        · simp [← heq, hk]
        · simp [← heq, hk, Ne.symm hk]
      · simp only [heq, if_false, List.find?_cons]
        by_cases hdk : d.1 = k'
        · have hne : k' ≠ k := fun hk => heq (hk ▸ hdk.symm)
          simp [hdk, hne]
        · simp [hdk, ih]

/-- Inserting under a key changes the value there and no other. -/
theorem get?_insert (m : SortedMap κ ν) (k k' : κ) (v : ν) :
    (m.insert k v).get? k' = if k' = k then some v else m.get? k' := by
  simp only [get?, insert]
  rw [find?_insertEntry]
  split <;> simp

omit [DecidableLT κ] [Std.IsLinearOrder κ] in
theorem find?_of_mem {l : List (κ × ν)} (h : l.Pairwise fun a b => a.1 < b.1) {e : κ × ν}
    (he : e ∈ l) : l.find? (fun d => d.1 = e.1) = some e := by
  induction l with
  | nil => simp at he
  | cons d rest ih =>
    obtain ⟨hd, hrest⟩ := List.pairwise_cons.1 h
    rcases List.mem_cons.1 he with rfl | he
    · simp
    · have hlt := hd e he
      have hne : d.1 ≠ e.1 := fun heq => Std.lt_irrefl (heq ▸ hlt)
      simp [hne, ih hrest he]

omit [DecidableLT κ] [Std.IsLinearOrder κ] in
/-- The entries are the keys with the values found under them. -/
theorem mem_entries_iff (m : SortedMap κ ν) (k : κ) (v : ν) :
    (k, v) ∈ m.entries ↔ m.get? k = some v := by
  constructor
  · intro h
    simp [get?, find?_of_mem m.ascending h]
  · intro h
    simp only [get?, Option.map_eq_some_iff] at h
    obtain ⟨e, he, rfl⟩ := h
    have hk := List.find?_some he
    simp only [decide_eq_true_eq] at hk
    exact hk ▸ List.mem_of_find?_eq_some he

omit [DecidableLT κ] [DecidableEq κ] in
theorem entries_eq_of_mem_iff {l l' : List (κ × ν)} (h : l.Pairwise fun a b => a.1 < b.1)
    (h' : l'.Pairwise fun a b => a.1 < b.1) (hmem : ∀ e, e ∈ l ↔ e ∈ l') : l = l' := by
  induction l generalizing l' with
  | nil =>
    cases l' with
    | nil => rfl
    | cons d _ => exact absurd ((hmem d).2 List.mem_cons_self) (by simp)
  | cons d rest ih =>
    cases l' with
    | nil => exact absurd ((hmem d).1 List.mem_cons_self) (by simp)
    | cons d' rest' =>
      obtain ⟨hd, hrest⟩ := List.pairwise_cons.1 h
      obtain ⟨hd', hrest'⟩ := List.pairwise_cons.1 h'
      have hdd : d = d' := by
        rcases List.mem_cons.1 ((hmem d).1 List.mem_cons_self) with heq | hin
        · exact heq
        · rcases List.mem_cons.1 ((hmem d').2 List.mem_cons_self) with heq | hin'
          · exact heq.symm
          · exact absurd (Std.lt_trans (hd' d hin) (hd d' hin')) Std.lt_irrefl
      subst hdd
      congr 1
      refine ih hrest hrest' fun e => ⟨fun he => ?_, fun he => ?_⟩
      · rcases List.mem_cons.1 ((hmem e).1 (List.mem_cons_of_mem _ he)) with rfl | hin
        · exact absurd (hd _ he) Std.lt_irrefl
        · exact hin
      · rcases List.mem_cons.1 ((hmem e).2 (List.mem_cons_of_mem _ he)) with rfl | hin
        · exact absurd (hd' _ he) Std.lt_irrefl
        · exact hin

omit [DecidableLT κ] in
/-- Maps that give the same answers are equal. -/
theorem ext_get? {m m' : SortedMap κ ν} (h : ∀ k, m.get? k = m'.get? k) : m = m' := by
  have hentries : m.entries = m'.entries :=
    entries_eq_of_mem_iff m.ascending m'.ascending fun e => by
      rw [show e = (e.1, e.2) from rfl, mem_entries_iff, mem_entries_iff, h]
  cases m; cases m'; cases hentries; rfl

end Lookup

end SortedMap

end UserDirectory
