import UserDirectory.Proofs.Store.Upkeep
/-!
# Changes that do not notice each other

A change of a table is about one number, and may give the user with that number a name.  What comes of it
depends on who stands under the number and on whether somebody else has the name, and on nothing else.  So
changes of different users come to the same in every order, if none gives a name that another one gives or
takes away.

Main statements:
  * `perform_congr`: what a change looks at;
  * `Independent.perform_comm`: two changes in either order;
  * `independent_changes_commute`: any number of them, in every order.
-/

namespace UserDirectory.Store

open UserDirectory.Time (Instant)

/-! ## §1. What a change is about. -/

/-- What a change is about: the number of a user, and the name that the user is to have. -/
structure Aim where
  id : UInt32
  /-- nothing where the user is to go -/
  username : Option String

/-- What an operation is about that changes a table, if it does not fail.  The others only read. -/
def Operation.aim? : Operation → Option Aim
  | .add u => some ⟨u.id, some u.username⟩
  | .update u => some ⟨u.id, some u.username⟩
  | .delete id => some ⟨id, none⟩
  | _ => none

/-- A change does not meddle with a name: it does not give it, and who stands under its number does not
have it. -/
def Aim.Spares (a : Aim) (t : Table) (name : String) : Prop :=
  a.username ≠ some name ∧ ∀ u, t.get? a.id = some u → u.username ≠ name

/-- Two changes of a table are about different users, and neither gives a name that the other gives or that
the other's user has. -/
inductive Independent (t : Table) : Operation → Operation → Prop
  | intro {m n : Operation} {a b : Aim} (hm : m.aim? = some a) (hn : n.aim? = some b) (hid : a.id ≠ b.id)
      (hgiven : ∀ name, a.username = some name → b.Spares t name)
      (hgiven' : ∀ name, b.username = some name → a.Spares t name) : Independent t m n

instance (a : Aim) (t : Table) (name : String) : Decidable (a.Spares t name) :=
  inferInstanceAs (Decidable (_ ∧ ∀ u ∈ t.get? a.id, u.username ≠ name))

theorem independent_iff {t : Table} {m n : Operation} {a b : Aim} (hm : m.aim? = some a)
    (hn : n.aim? = some b) :
    Independent t m n ↔ a.id ≠ b.id ∧ (∀ name ∈ a.username, b.Spares t name)
      ∧ ∀ name ∈ b.username, a.Spares t name := by
  constructor
  · rintro ⟨hm', hn', hid, hgiven, hgiven'⟩
    cases hm.symm.trans hm'
    cases hn.symm.trans hn'
    exact ⟨hid, hgiven, hgiven'⟩
  · rintro ⟨hid, hgiven, hgiven'⟩
    exact .intro hm hn hid hgiven hgiven'

instance (t : Table) (m n : Operation) : Decidable (Independent t m n) :=
  match hm : m.aim?, hn : n.aim? with
  | some _, some _ => decidable_of_iff' _ (independent_iff hm hn)
  | none, _ => isFalse fun | .intro hm' _ _ _ _ => nomatch hm.symm.trans hm'
  | some _, none => isFalse fun | .intro _ hn' _ _ _ => nomatch hn.symm.trans hn'

variable {t t' : Table} {now now' : Instant} {m n p : Operation} {a b : Aim} {k : UInt32} {name : String}

theorem Independent.symm (h : Independent t m n) : Independent t n m := by
  obtain ⟨hm, hn, hid, hgiven, hgiven'⟩ := h
  exact .intro hn hm hid.symm hgiven' hgiven

theorem Independent.aims (h : Independent t m n) :
    ∃ a b, m.aim? = some a ∧ n.aim? = some b ∧ a.id ≠ b.id := by
  obtain ⟨hm, hn, hid, _, _⟩ := h
  exact ⟨_, _, hm, hn, hid⟩

namespace Table

/-- Nothing is altered under a number that an operation is not about. -/
theorem get?_perform_of_ne (hk : ∀ a, m.aim? = some a → a.id ≠ k) :
    (t.perform now m).2.get? k = t.get? k := by
  obtain hsame | ⟨u, rfl, _, _, hdone⟩ | ⟨u, old, rfl, _, _, hdone⟩ | ⟨id, rfl, hdone⟩ :=
    perform_cases t now m
  · rw [hsame]
  · rw [hdone]
    exact (SortedMap.get?_insert ..).trans (if_neg (hk _ rfl).symm)
  · rw [hdone]
    exact (SortedMap.get?_insert ..).trans (if_neg (hk _ rfl).symm)
  · rw [hdone]
    exact (SortedMap.get?_erase ..).trans (if_neg (hk _ rfl).symm)

/-- Nothing is altered under a number other than that of a change. -/
theorem get?_perform_of_aim_ne (hm : m.aim? = some a) (hk : a.id ≠ k) :
    (t.perform now m).2.get? k = t.get? k := by
  refine get?_perform_of_ne fun c hc => ?_
  cases hm.symm.trans hc
  exact hk

/-- Who stands under the number of a change after it has the name that it gives, or has stood there. -/
theorem username_perform {u : User} (hm : m.aim? = some a) (hu : (t.perform now m).2.get? a.id = some u) :
    a.username = some u.username ∨ t.get? a.id = some u := by
  obtain hsame | ⟨v, rfl, _, _, hdone⟩ | ⟨v, old, rfl, _, _, hdone⟩ | ⟨id, rfl, hdone⟩ :=
    perform_cases t now m
  · exact .inr (hsame ▸ hu)
  all_goals
    cases hm
    rw [hdone] at hu
  · rw [SortedMap.get?_insert, if_pos rfl] at hu
    cases hu
    exact .inl rfl
  · rw [SortedMap.get?_insert, if_pos rfl] at hu
    cases hu
    exact .inl rfl
  · rw [SortedMap.get?_erase, if_pos rfl] at hu
    cases hu

/-- A name with which a change does not meddle is as free after it as before. -/
theorem isFree_perform (hm : m.aim? = some a) (hspares : a.Spares t name) (id : UInt32) :
    (t.perform now m).2.isFree id name = t.isFree id name := by
  have hthere : ∀ u, (t.perform now m).2.get? a.id = some u → u.username ≠ name := by
    intro u hu
    obtain hgives | hstood := username_perform hm hu
    · rintro rfl
      exact hspares.1 hgives
    · exact hspares.2 u hstood
  rw [Bool.eq_iff_iff, isFree_iff, isFree_iff]
  refine forall_congr' fun k => forall_congr' fun u => ?_
  by_cases hk : k = a.id
  · -- whoever stands there has another name, before and after
    rw [hk]
    exact iff_of_true (fun hu => .inr (hthere u hu)) (fun hu => .inr (hspares.2 u hu))
  · rw [get?_perform_of_aim_ne hm (Ne.symm hk)]

/-- What comes of a change depends on who stands under its number and on whether its name is free. -/
theorem perform_congr (hm : m.aim? = some a) (hget : t.get? a.id = t'.get? a.id)
    (hfree : ∀ name, a.username = some name → t.isFree a.id name = t'.isFree a.id name) :
    (t.perform now m).1 = (t'.perform now m).1
      ∧ (t.perform now m).2.get? a.id = (t'.perform now m).2.get? a.id := by
  have hcontains : t.contains a.id = t'.contains a.id := congrArg Option.isSome hget
  cases m with
  | add u =>
    cases hm
    simp only [perform, add, hcontains, hfree u.username rfl]
    split
    · exact ⟨rfl, hget⟩
    · split
      · exact ⟨rfl, by simp only [changed, SortedMap.get?_insert, if_true]⟩
      · exact ⟨rfl, hget⟩
  | update u =>
    cases hm
    simp only [perform, replace, hcontains, hfree u.username rfl]
    split
    · split
      · exact ⟨rfl, by simp only [changed, SortedMap.get?_insert, if_true]⟩
      · exact ⟨rfl, hget⟩
    · exact ⟨rfl, hget⟩
  | delete id =>
    cases hm
    simp only [perform, remove, hcontains]
    split
    · exact ⟨rfl, by simp only [changed, SortedMap.get?_erase, if_true]⟩
    · exact ⟨rfl, hget⟩
  | _ => cases hm

end Table

open Table

/-! ## §2. Two changes. -/

/-- A change gives what it would give before an independent one, and leaves the same under its number. -/
theorem Independent.perform_eq (h : Independent t m n) (hm : m.aim? = some a) :
    ((t.perform now' n).2.perform now m).1 = (t.perform now m).1
      ∧ ((t.perform now' n).2.perform now m).2.get? a.id = (t.perform now m).2.get? a.id := by
  obtain ⟨hm', hn, hid, hgiven, _⟩ := h
  cases hm.symm.trans hm'
  exact perform_congr hm (get?_perform_of_aim_ne hn hid.symm) fun name hname =>
    isFree_perform hn (hgiven name hname) _

/-- Two independent changes leave the same table in either order. -/
theorem Independent.perform_comm (h : Independent t m n) :
    ((t.perform now m).2.perform now' n).2 = ((t.perform now' n).2.perform now m).2 := by
  obtain ⟨a, b, hm, hn, hid⟩ := h.aims
  refine SortedMap.ext_get? fun k => ?_
  by_cases ha : a.id = k
  · -- only the first change is about this number
    subst ha
    rw [get?_perform_of_aim_ne hn hid.symm, (h.perform_eq hm).2]
  · rw [get?_perform_of_aim_ne (t := (t.perform now' n).2) hm ha]
    by_cases hb : b.id = k
    · subst hb
      rw [(h.symm.perform_eq hn).2]
    · rw [get?_perform_of_aim_ne hn hb, get?_perform_of_aim_ne hm ha, get?_perform_of_aim_ne hn hb]

/-- Changes stay independent when one is performed of which both are independent. -/
theorem Independent.perform (h : Independent t m n) (hm : Independent t p m) (hn : Independent t p n) :
    Independent (t.perform now p).2 m n := by
  obtain ⟨c, a, hp, haim, hca⟩ := hm.aims
  obtain ⟨c', b, hp', haim', hcb⟩ := hn.aims
  obtain ⟨hm', hn', hid, hgiven, hgiven'⟩ := h
  cases hp.symm.trans hp'
  cases haim.symm.trans hm'
  cases haim'.symm.trans hn'
  -- under the numbers of the other two stand the same users as before
  have ha : (t.perform now p).2.get? a.id = t.get? a.id := get?_perform_of_aim_ne hp hca
  have hb : (t.perform now p).2.get? b.id = t.get? b.id := get?_perform_of_aim_ne hp hcb
  refine .intro haim haim' hid (fun name hname => ?_) fun name hname => ?_
  · exact ⟨(hgiven name hname).1, hb ▸ (hgiven name hname).2⟩
  · exact ⟨(hgiven' name hname).1, ha ▸ (hgiven' name hname).2⟩

/-! ## §3. Any number of changes. -/

/-- Performs operations one after another, each at an instant of its own: what they give, and the table
after the last one. -/
def Table.performAll : Table → List (Instant × Operation) → List (Σ op : Operation, op.Outcome) × Table
  | t, [] => ([], t)
  | t, (now, op) :: more =>
    (⟨op, (t.perform now op).1⟩ :: (performAll (t.perform now op).2 more).1,
      (performAll (t.perform now op).2 more).2)

/-- Changes of a table of which each is independent of every other one. -/
def AllIndependent (t : Table) (l : List (Instant × Operation)) : Prop :=
  l.Pairwise fun x y => Independent t x.2 y.2

variable {l l' : List (Instant × Operation)} {x y : Instant × Operation}

theorem AllIndependent.perm (h : AllIndependent t l) (hperm : l.Perm l') : AllIndependent t l' :=
  (hperm.pairwise_iff fun hxy => hxy.symm).1 h

/-- When one of them has been performed, the others are still independent. -/
theorem AllIndependent.tail (h : AllIndependent t (x :: l)) :
    AllIndependent (t.perform x.1 x.2).2 l := by
  obtain ⟨hfirst, hrest⟩ := List.pairwise_cons.1 h
  exact hrest.imp_of_mem fun hy hz hyz => hyz.perform (hfirst _ hy) (hfirst _ hz)

/-- Each gives what it would give if it were the only one. -/
theorem AllIndependent.outcomes_eq (h : AllIndependent t l) :
    (t.performAll l).1 = l.map fun x => ⟨x.2, (t.perform x.1 x.2).1⟩ := by
  induction l generalizing t with
  | nil => rfl
  | cons x l ih =>
    obtain ⟨hfirst, _⟩ := List.pairwise_cons.1 h
    rw [Table.performAll, ih h.tail, List.map_cons]
    refine congrArg _ (List.map_congr_left fun y hy => ?_)
    obtain ⟨_, _, _, hy', _⟩ := (hfirst y hy).aims
    rw [((hfirst y hy).symm.perform_eq hy').1]

/-- Under a number that none of them is about nothing is altered. -/
theorem get?_performAll_of_ne (hk : ∀ x ∈ l, ∀ a, x.2.aim? = some a → a.id ≠ k) :
    (t.performAll l).2.get? k = t.get? k := by
  induction l generalizing t with
  | nil => rfl
  | cons x l ih =>
    rw [Table.performAll, ih fun y hy => hk y (List.mem_cons_of_mem _ hy)]
    exact get?_perform_of_ne (hk x List.mem_cons_self)

/-- Under the number of one of them stands what this one alone would leave there. -/
theorem AllIndependent.get?_performAll (h : AllIndependent t l) (hx : x ∈ l) (ha : x.2.aim? = some a) :
    (t.performAll l).2.get? a.id = (t.perform x.1 x.2).2.get? a.id := by
  induction l generalizing t with
  | nil => cases hx
  | cons y l ih =>
    obtain ⟨hfirst, _⟩ := List.pairwise_cons.1 h
    rw [Table.performAll]
    rcases List.mem_cons.1 hx with rfl | hx
    · -- those that follow are about other numbers
      refine get?_performAll_of_ne fun z hz c hc => ?_
      obtain ⟨_, _, hm, hn, hid⟩ := (hfirst z hz).aims
      cases ha.symm.trans hm
      cases hc.symm.trans hn
      exact hid.symm
    · rw [ih h.tail hx]
      exact ((hfirst x hx).symm.perform_eq ha).2

/-- In whatever order they are performed, the table in the end is the same. -/
theorem AllIndependent.performAll_perm (h : AllIndependent t l) (hperm : l.Perm l') :
    (t.performAll l').2 = (t.performAll l).2 := by
  refine SortedMap.ext_get? fun k => ?_
  by_cases hk : ∃ x ∈ l, ∃ a, x.2.aim? = some a ∧ a.id = k
  · obtain ⟨x, hx, a, ha, rfl⟩ := hk
    rw [(h.perm hperm).get?_performAll (hperm.mem_iff.1 hx) ha, h.get?_performAll hx ha]
  · have hne : ∀ x ∈ l, ∀ a, x.2.aim? = some a → a.id ≠ k := fun x hx a ha heq =>
      hk ⟨x, hx, a, ha, heq⟩
    rw [get?_performAll_of_ne fun x hx => hne x (hperm.mem_iff.2 hx), get?_performAll_of_ne hne]

/-- Independent changes come to the same in either order: each gives what it would give alone, and so any
number of them, in every order. -/
theorem independent_changes_commute (t : Table) :
    (∀ m n now now', Independent t m n →
      ((t.perform now' n).2.perform now m).1 = (t.perform now m).1
      ∧ ((t.perform now m).2.perform now' n).1 = (t.perform now' n).1
      ∧ ((t.perform now m).2.perform now' n).2 = ((t.perform now' n).2.perform now m).2)
    ∧ ∀ l l' : List (Instant × Operation), l.Pairwise (fun x y => Independent t x.2 y.2) → l.Perm l' →
      ((t.performAll l').1 = l'.map fun x => ⟨x.2, (t.perform x.1 x.2).1⟩)
      ∧ (t.performAll l').1.Perm (t.performAll l).1
      ∧ (t.performAll l').2 = (t.performAll l).2 := by
  refine ⟨fun m n now now' h => ?_, fun l l' h hperm => ?_⟩
  · obtain ⟨_, _, hm, hn, _⟩ := h.aims
    exact ⟨(h.perform_eq hm).1, (h.symm.perform_eq hn).1, h.perform_comm⟩
  · have hall : AllIndependent t l := h
    have hl := hall.outcomes_eq
    have hl' := (hall.perm hperm).outcomes_eq
    refine ⟨hl', ?_, hall.performAll_perm hperm⟩
    rw [hl, hl']
    exact (hperm.map _).symm

/-- A user with a number and a name. -/
def neighbour (id : UInt32) (username : String) : User :=
  ⟨id, username, .member, some .active, none, none, none, [], .empty, [], some .epoch, none⟩

/-- A store with two users. -/
def neighbours : Table :=
  (Table.performAll .empty ([neighbour 1 "ada", neighbour 2 "bob"].map fun u => (.epoch, .add u))).2

/-- One of them takes another name, the other one goes, somebody comes, and somebody is to be replaced who is
not there. -/
def moves : List (Instant × Operation) :=
  [.update (neighbour 1 "cy"), .delete 2, .add (neighbour 3 "dee"), .update (neighbour 9 "eve")].map
    fun op => (.epoch, op)

/-- In the order that is turned round the same of them fails, and the same users are left. -/
theorem independent_changes_commute_turned :
    moves.Pairwise (fun x y => Independent neighbours x.2 y.2) ∧ moves.Perm moves.reverse
      ∧ (neighbours.performAll moves.reverse).1
        = [⟨.update (neighbour 9 "eve"), Except.error (.notFound 9)⟩,
           ⟨.add (neighbour 3 "dee"), Except.ok ()⟩, ⟨.delete 2, Except.ok ()⟩,
           ⟨.update (neighbour 1 "cy"), Except.ok ()⟩]
      ∧ (neighbours.performAll moves.reverse).2 = (neighbours.performAll moves).2
      ∧ (neighbours.performAll moves).2.values = [neighbour 1 "cy", neighbour 3 "dee"]
      ∧ Independent neighbours (.delete 2) (.add (neighbour 3 "dee"))
      ∧ ((neighbours.perform .epoch (.add (neighbour 3 "dee"))).2.perform .epoch (.delete 2)).1
        = .ok () := by
  have hapart : moves.Pairwise fun x y => Independent neighbours x.2 y.2 := by decide +kernel
  obtain ⟨houtcomes, _, htable⟩ := (independent_changes_commute neighbours).2 moves moves.reverse hapart
    (List.reverse_perm moves).symm
  have htwo : Independent neighbours (.delete 2) (.add (neighbour 3 "dee")) := by decide +kernel
  obtain ⟨hdelete, _, _⟩ := (independent_changes_commute neighbours).1 _ _ .epoch .epoch htwo
  exact ⟨hapart, (List.reverse_perm moves).symm, houtcomes.trans rfl, htable, by decide +kernel, htwo,
    hdelete.trans rfl⟩

end UserDirectory.Store
