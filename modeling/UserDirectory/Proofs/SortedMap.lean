import UserDirectory.SortedMap
/-!
# Maps as lists of their entries

Main statements:
  * `insert_entries_perm`: a map with an entry put into it is that entry beside what there was under
    other keys;
  * `get?_ofList`: of the entries of a list that have one key, the last one counts.
-/

namespace UserDirectory.SortedMap

variable {κ ν : Type} [LT κ] [DecidableEq κ] [LE κ] [Std.IsLinearOrder κ] [Std.LawfulOrderLT κ]

omit [Std.IsLinearOrder κ] in
/-- An entry stands beside those under other keys. -/
theorem perm_cons_filter {l : List (κ × ν)} (h : l.Pairwise fun a b => a.1 < b.1) {e : κ × ν}
    (he : e ∈ l) : l.Perm (e :: l.filter fun d => decide (d.1 ≠ e.1)) := by
  induction l with
  | nil => cases he
  | cons d l ih =>
    obtain ⟨hd, hl⟩ := List.pairwise_cons.1 h
    have hne : ∀ a b : κ, a < b → b ≠ a := fun a b hlt heq => Std.lt_irrefl (heq ▸ hlt)
    rcases List.mem_cons.1 he with rfl | he
    · rw [List.filter_cons_of_neg (by simp)]
      refine List.Perm.cons _ ?_
      rw [List.filter_eq_self.2 fun a ha => decide_eq_true (hne _ _ (hd a ha))]
    · have hkey : d.1 ≠ e.1 := fun heq => hne _ _ (hd e he) heq.symm
      rw [List.filter_cons_of_pos (by exact decide_eq_true hkey)]
      exact ((ih hl he).cons d).trans (.swap _ _ _)

omit [Std.IsLinearOrder κ] in
/-- The entry under a key stands beside those under other keys. -/
theorem entries_perm_of_get? {m : SortedMap κ ν} {k : κ} {v : ν} (h : m.get? k = some v) :
    m.entries.Perm ((k, v) :: (m.erase k).entries) :=
  perm_cons_filter m.ascending ((m.mem_entries_iff k v).2 h)

/-- To erase a key that is not there changes nothing. -/
theorem erase_of_get?_eq_none {m : SortedMap κ ν} {k : κ} (h : m.get? k = none) : m.erase k = m := by
  refine ext_get? fun k' => ?_
  rw [get?_erase]
  split
  · rename_i hk
    rw [hk, h]
  · rfl

variable [DecidableLT κ]

/-- What has been put under a key is erased with it. -/
theorem erase_insert (m : SortedMap κ ν) (k : κ) (v : ν) : (m.insert k v).erase k = m.erase k := by
  refine ext_get? fun k' => ?_
  rw [get?_erase, get?_erase, get?_insert]
  split
  · rfl
  · rfl

/-- A map with an entry put into it is that entry beside what there was under other keys. -/
theorem insert_entries_perm (m : SortedMap κ ν) (k : κ) (v : ν) :
    (m.insert k v).entries.Perm ((k, v) :: (m.erase k).entries) := by
  have hget : (m.insert k v).get? k = some v := by
    rw [get?_insert, if_pos rfl]
  rw [← erase_insert m k v]
  exact entries_perm_of_get? hget

/-- Of the entries of a list that have one key, the last one counts. -/
theorem get?_ofList (l : List (κ × ν)) (k : κ) :
    (ofList l).get? k = (l.reverse.find? fun e => e.1 = k).map (·.2) := by
  -- the same for entries that are put into a map
  have hinto : ∀ (l : List (κ × ν)) (m : SortedMap κ ν),
      (l.foldl (fun m e => m.insert e.1 e.2) m).get? k
        = ((l.reverse.find? fun e => e.1 = k).map (·.2)).or (m.get? k) := by
    intro l
    induction l with
    | nil =>
      intro m
      rfl
    | cons e l ih =>
      intro m
      rw [List.foldl_cons, ih, get?_insert, List.reverse_cons, List.find?_append]
      cases hlater : l.reverse.find? fun e => e.1 = k with
      | some later => rfl
      | none =>
        by_cases hk : e.1 = k
        · simp [hk]
        · simp [hk, Ne.symm hk]
  rw [ofList, hinto, get?_empty, Option.or_none]

end UserDirectory.SortedMap
