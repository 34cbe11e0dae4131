import UserDirectory.Proofs.Store.Upkeep
import Mathlib.Data.List.Nodup
/-!
# Reading a listing page by page

Who asks for a listing page after page, each page starting after the last user of the one before, sees
every user who is there all the time, once, and nobody twice.  The table may be another one at every
page: users may come, go and change in between, also the one after whom the next page starts.

The argument rests on one number, the `floor`: all users below it have been passed.  A page takes the
first of the users who are left, so what it leaves lies above its last user, and the floor rises with
every page.

Main statements:
  * `Table.mem_matching_iff`: whom a listing finds after a user, and that they stand in order;
  * `Walk.exists`, `Walk.unique`: the walk comes to an end, in one way;
  * `Walk.ascending`, `Walk.sound`, `Walk.complete`: what it has given by then;
  * `walk_loses_nothing`: all of it together.
-/

namespace UserDirectory.Store

/-! ## §1. The users a filter is about. -/

/-- Which users satisfy every condition of a filter. -/
structure ListFilter.Meets (f : ListFilter) (u : User) : Prop where
  createdSince : ∀ since, f.createdSince = some since →
    ∃ created, u.createDate = some created ∧ since ≤ created
  createdBefore : ∀ before, f.createdBefore = some before →
    ∃ created, u.createDate = some created ∧ created < before
  status : ∀ s, f.status = some s → u.status = some s

theorem ListFilter.asks_iff {α : Type} {wanted : Option α} {holds : α → Bool} :
    asks wanted holds = true ↔ ∀ a, wanted = some a → holds a = true := by
  cases wanted with
  | none => simp [asks]
  | some a => simp [asks]

theorem ListFilter.accepts_iff {f : ListFilter} {u : User} : f.accepts u = true ↔ f.Meets u := by
  unfold accepts
  rw [Bool.and_eq_true, Bool.and_eq_true, asks_iff, asks_iff, asks_iff]
  constructor
  · rintro ⟨⟨hsince, hbefore⟩, hstatus⟩
    refine ⟨fun since h => ?_, fun before h => ?_, fun s h => ?_⟩
    · simpa [Option.any_eq_true] using hsince since h
    · simpa [Option.any_eq_true] using hbefore before h
    · simpa using hstatus s h
  · intro h
    refine ⟨⟨fun since hf => ?_, fun before hf => ?_⟩, fun s hf => ?_⟩
    · simpa [Option.any_eq_true] using h.createdSince since hf
    · simpa [Option.any_eq_true] using h.createdBefore before hf
    · simpa using h.status s hf

/-! ## §2. One page. -/

/-- The first number that a listing after a user may still give. -/
def floor : Option UInt32 → Nat
  | none => 0
  | some id => id.toNat + 1

/-- The users of a table that a listing after a user is about. -/
def Table.matching (t : Table) (f : ListFilter) (last : Option UInt32) : List User :=
  (t.after last).filter f.accepts

/-- The filter for going on after a user. -/
def ListFilter.startingAfter (f : ListFilter) (last : Option UInt32) : ListFilter :=
  { f with pageToken := last.map PageToken.ofId }

variable {f : ListFilter} {t : Table} {last : Option UInt32} {u v : User} {page : List User}

/-- A page is the beginning of what there is after the user its token names. -/
theorem Table.select_startingAfter (t : Table) (f : ListFilter) (last : Option UInt32) :
    t.select (f.startingAfter last) = .ok (f.firstPage (t.matching f last)) := by
  cases last with
  | none => rfl
  | some id =>
    have hcursor : (f.startingAfter (some id)).cursor = .ok (some id) := by
      simp only [ListFilter.cursor, ListFilter.startingAfter, Option.map_some, PageToken.after?_ofId]
    unfold Table.select
    rw [hcursor]
    rfl

/-- The users after another are those whose number is not below the floor. -/
theorem asks_last_iff : (ListFilter.asks last fun id => decide (id < u.id)) = true
    ↔ floor last ≤ u.id.toNat := by
  cases last with
  | none => simp [ListFilter.asks, floor]
  | some id =>
    show decide (id < u.id) = true ↔ id.toNat + 1 ≤ u.id.toNat
    rw [decide_eq_true_iff, UInt32.lt_iff_toNat_lt]
    omega

/-- Whom a listing finds: stored users who meet the conditions and have not been passed. -/
theorem Table.mem_matching_iff (ht : t.Tidy) :
    u ∈ t.matching f last ↔ t.get? u.id = some u ∧ f.Meets u ∧ floor last ≤ u.id.toNat := by
  unfold Table.matching
  rw [ht.after_eq_filter, List.mem_filter, List.mem_filter, asks_last_iff, ListFilter.accepts_iff]
  constructor
  · rintro ⟨⟨hmem, hfloor⟩, hmeets⟩
    exact ⟨ht.get?_id hmem, hmeets, hfloor⟩
  · rintro ⟨hget, hmeets, hfloor⟩
    exact ⟨⟨mem_values_iff.2 ⟨u.id, hget⟩, hfloor⟩, hmeets⟩

/-- Whoever stands under a number that has not been passed, and meets the conditions, is found. -/
theorem Table.exists_mem_matching (ht : t.Tidy) {k : UInt32} (hfloor : floor last ≤ k.toNat)
    (hthere : ∃ u, t.get? k = some u ∧ f.Meets u) : ∃ u ∈ t.matching f last, u.id = k := by
  obtain ⟨u, hget, hmeets⟩ := hthere
  have hid : u.id = k := ht.id_eq k u hget
  subst hid
  exact ⟨u, (mem_matching_iff ht).2 ⟨hget, hmeets, hfloor⟩, rfl⟩

/-- A listing gives the users in the order of their numbers. -/
theorem Table.matching_ascending (ht : t.Tidy) (f : ListFilter) (last : Option UInt32) :
    (t.matching f last).Pairwise fun u v => u.id < v.id := by
  unfold Table.matching
  rw [ht.after_eq_filter]
  exact (ht.values_ascending.filter _).filter _

/-- A page that may hold users is empty only if there are none. -/
theorem firstPage_eq_nil {l : List User} (hsize : f.pageSize ≠ 0) (h : f.firstPage l = []) :
    l = [] := by
  have hpos : f.pageSize.toNat ≠ 0 := fun hzero => hsize (UInt32.toNat_inj.1 hzero)
  simp only [ListFilter.firstPage, ListFilter.limit, if_neg hsize] at h
  rcases List.take_eq_nil_iff.1 h with hzero | hnil
  · exact absurd hzero hpos
  · exact hnil

theorem length_firstPage_le {l : List User} (hsize : f.pageSize ≠ 0) :
    (f.firstPage l).length ≤ f.pageSize.toNat := by
  simp only [ListFilter.firstPage, ListFilter.limit, if_neg hsize]
  exact List.length_take_le _ _

theorem firstPage_of_unlimited {l : List User} (hsize : f.pageSize = 0) : f.firstPage l = l := by
  simp only [ListFilter.firstPage, ListFilter.limit, if_pos hsize]

/-- In a row of users in order, nobody comes after the last one. -/
theorem id_le_of_getLast? {l : List User} (h : l.Pairwise fun u v => u.id < v.id)
    (hlast : l.getLast? = some u) (hv : v ∈ l) : v.id.toNat ≤ u.id.toNat := by
  obtain ⟨before, rfl⟩ := List.getLast?_eq_some_iff.1 hlast
  rcases List.mem_append.1 hv with hbefore | hself
  · have hlt := (List.pairwise_append.1 h).2.2 v hbefore u (List.mem_singleton.2 rfl)
    exact Nat.le_of_lt (UInt32.lt_iff_toNat_lt.1 hlt)
  · obtain rfl := List.mem_singleton.1 hself
    exact Nat.le_refl _

/-- Whoever a page leaves out comes after its last user. -/
theorem mem_firstPage_of_le {l : List User} (h : l.Pairwise fun u v => u.id < v.id)
    (hlast : (f.firstPage l).getLast? = some u) (hv : v ∈ l) (hle : v.id.toNat ≤ u.id.toNat) :
    v ∈ f.firstPage l := by
  obtain ⟨rest, hrest⟩ := f.firstPage_prefix l
  rw [← hrest] at hv h
  rcases List.mem_append.1 hv with hpage | hleft
  · exact hpage
  · -- the last user of the page stands before everyone who is left out
    have hlt := (List.pairwise_append.1 h).2.2 u (List.mem_of_getLast? hlast) v hleft
    have := UInt32.lt_iff_toNat_lt.1 hlt
    omega

/-! ## §3. Page after page. -/

/-- Reading a listing page by page, each page starting after the last user of the one before, until a
page is empty.  The page with number `n` is read from the table that the store holds by then. -/
inductive Walk (f : ListFilter) (stores : Nat → Table) :
    Nat → Option UInt32 → List (List User) → Prop
  | stop {n : Nat} {last : Option UInt32} (hpage : (stores n).select (f.startingAfter last) = .ok []) :
      Walk f stores n last []
  | next {n : Nat} {last : Option UInt32} {page : List User} {u : User} {pages : List (List User)}
      (hpage : (stores n).select (f.startingAfter last) = .ok page) (hlast : page.getLast? = some u)
      (rest : Walk f stores (n + 1) (some u.id) pages) : Walk f stores n last (page :: pages)

variable {stores : Nat → Table} {n : Nat} {pages others : List (List User)}

/-- A page ends with a user who has not been passed. -/
theorem floor_le_of_page (ht : t.Tidy) (hpage : t.select (f.startingAfter last) = .ok page)
    (hu : u ∈ page) : t.get? u.id = some u ∧ f.Meets u ∧ floor last ≤ u.id.toNat := by
  rw [Table.select_startingAfter] at hpage
  cases hpage
  exact (Table.mem_matching_iff ht).1 ((f.firstPage_prefix _).subset hu)

/-- The walk comes to an end.  The floor rises with every page, and there are only so many numbers. -/
theorem Walk.exists (hstores : ∀ n, (stores n).Tidy) (n : Nat) (last : Option UInt32) :
    ∃ pages, Walk f stores n last pages := by
  induction hleft : UInt32.size - floor last using Nat.strongRecOn generalizing n last with
  | ind left ih =>
    have hpage := (stores n).select_startingAfter f last
    cases hend : (f.firstPage ((stores n).matching f last)).getLast? with
    | none =>
      rw [List.getLast?_eq_none_iff.1 hend] at hpage
      exact ⟨[], .stop hpage⟩
    | some u =>
      have hrises : floor last ≤ u.id.toNat :=
        (floor_le_of_page (hstores n) hpage (List.mem_of_getLast? hend)).2.2
      have hbound : u.id.toNat < UInt32.size := u.id.toNat_lt
      have hfalls : UInt32.size - floor (some u.id) < left := by
        show UInt32.size - (u.id.toNat + 1) < left
        omega
      obtain ⟨pages, hrest⟩ := ih _ hfalls (n + 1) (some u.id) rfl
      exact ⟨_, .next hpage hend hrest⟩

/-- The walk goes one way only. -/
theorem Walk.unique (h : Walk f stores n last pages) (h' : Walk f stores n last others) :
    pages = others := by
  induction h generalizing others with
  | stop hpage =>
    cases h' with
    | stop _ => rfl
    | next hpage' hlast' _ =>
      rw [hpage] at hpage'
      cases hpage'
      cases hlast'
  | next hpage hlast _ ih =>
    cases h' with
    | stop hpage' =>
      rw [hpage] at hpage'
      cases hpage'
      cases hlast
    | next hpage' hlast' hrest' =>
      rw [hpage] at hpage'
      cases hpage'
      rw [hlast] at hlast'
      cases hlast'
      rw [ih hrest']

/-- No page is larger than it may be. -/
theorem Walk.length_le (hsize : f.pageSize ≠ 0) (h : Walk f stores n last pages) :
    ∀ page ∈ pages, page.length ≤ f.pageSize.toNat := by
  induction h with
  | stop _ =>
    intro page hmem
    cases hmem
  | next hpage _ _ ih =>
    intro page hmem
    rcases List.mem_cons.1 hmem with rfl | hmore
    · rw [Table.select_startingAfter] at hpage
      cases hpage
      exact length_firstPage_le hsize
    · exact ih page hmore

/-- Every user of a page is stored when the page is read, and meets the conditions by then. -/
theorem Walk.sound (hstores : ∀ n, (stores n).Tidy) (h : Walk f stores n last pages) :
    ∀ i page, pages[i]? = some page →
      ∀ u ∈ page, (stores (n + i)).get? u.id = some u ∧ f.Meets u ∧ floor last ≤ u.id.toNat := by
  induction h with
  | stop _ =>
    intro i page hi
    cases hi
  | @next n last first w pages hpage hlast _ ih =>
    intro i page hi u hu
    cases i with
    | zero =>
      cases hi
      exact floor_le_of_page (hstores n) hpage hu
    | succ i =>
      obtain ⟨hget, hmeets, hfloor⟩ := ih i page hi u hu
      have hrises := (floor_le_of_page (hstores n) hpage (List.mem_of_getLast? hlast)).2.2
      have hpassed : w.id.toNat + 1 ≤ u.id.toNat := hfloor
      refine ⟨?_, hmeets, by omega⟩
      rw [show n + (i + 1) = n + 1 + i by omega]
      exact hget

/-- What has been given is in the order of the numbers, over all the pages. -/
theorem Walk.ascending (hstores : ∀ n, (stores n).Tidy) (h : Walk f stores n last pages) :
    pages.flatten.Pairwise fun u v => u.id < v.id := by
  induction h with
  | stop _ => exact .nil
  | @next n last page w pages hpage hlast hrest ih =>
    rw [Table.select_startingAfter] at hpage
    cases hpage
    have hinorder := (stores n).matching_ascending (hstores n) f last
    have hpage := hinorder.sublist (f.firstPage_prefix _).sublist
    rw [List.flatten_cons]
    refine List.pairwise_append.2 ⟨hpage, ih, fun u hu v hv => ?_⟩
    -- the pages that follow start above the last user of this one
    obtain ⟨later, hlater, hvin⟩ := List.mem_flatten.1 hv
    obtain ⟨i, hi⟩ := List.mem_iff_getElem?.1 hlater
    have habove : w.id.toNat + 1 ≤ v.id.toNat := (hrest.sound hstores i later hi v hvin).2.2
    have hbelow := id_le_of_getLast? hpage hlast hu
    exact UInt32.lt_iff_toNat_lt.2 (by omega)

/-- Whoever has not been passed, and is there and meets the conditions at every page, is given. -/
theorem Walk.complete (hsize : f.pageSize ≠ 0) (hstores : ∀ n, (stores n).Tidy)
    (h : Walk f stores n last pages) {k : UInt32} (hfloor : floor last ≤ k.toNat)
    (hthere : ∀ i ≤ pages.length, ∃ u, (stores (n + i)).get? k = some u ∧ f.Meets u) :
    k ∈ pages.flatten.map (·.id) := by
  induction h with
  | @stop n last hpage =>
    -- the page that ended the walk would have given them
    obtain ⟨u, hmem, _⟩ := Table.exists_mem_matching (hstores n) hfloor (hthere 0 (Nat.zero_le _))
    rw [Table.select_startingAfter] at hpage
    rw [firstPage_eq_nil hsize (Except.ok.inj hpage)] at hmem
    cases hmem
  | @next n last page w pages hpage hlast _ ih =>
    rw [List.flatten_cons, List.map_append, List.mem_append]
    by_cases hpassed : k.toNat ≤ w.id.toNat
    · -- the page reaches as far as them, so it gives them
      obtain ⟨u, hmem, rfl⟩ := Table.exists_mem_matching (hstores n) hfloor (hthere 0 (Nat.zero_le _))
      rw [Table.select_startingAfter] at hpage
      cases hpage
      have hinorder := (stores n).matching_ascending (hstores n) f last
      have hgiven := mem_firstPage_of_le hinorder hlast hmem hpassed
      exact .inl (List.mem_map_of_mem hgiven)
    · -- a later page gives them
      refine .inr (ih (show w.id.toNat + 1 ≤ k.toNat by omega) fun i hi => ?_)
      have hlater := hthere (i + 1) (Nat.succ_le_succ hi)
      rwa [show n + (i + 1) = n + 1 + i by omega] at hlater

/-- Two rows in the order of the numbers that hold the same users are equal. -/
theorem eq_of_ascending {l l' : List User} (h : l.Pairwise fun u v => u.id < v.id)
    (h' : l'.Pairwise fun u v => u.id < v.id) (hmem : ∀ u, u ∈ l ↔ u ∈ l') : l = l' := by
  have hne : ∀ {u v : User}, u.id < v.id → u ≠ v := fun hlt heq => Std.lt_irrefl (heq ▸ hlt)
  have hperm : l.Perm l' := (List.perm_ext_iff_of_nodup (h.imp hne) (h'.imp hne)).2 hmem
  exact hperm.eq_of_pairwise (fun u v _ _ hlt hgt => absurd (Std.lt_trans hlt hgt) Std.lt_irrefl) h h'

/-- If the store does not change, the pages together are the whole listing. -/
theorem Walk.flatten_eq (hsize : f.pageSize ≠ 0) (ht : t.Tidy)
    (h : Walk f (fun _ => t) 0 none pages) : pages.flatten = t.matching f none := by
  refine eq_of_ascending (h.ascending fun _ => ht) (t.matching_ascending ht f none) fun u => ?_
  constructor
  · intro hu
    obtain ⟨page, hpage, hin⟩ := List.mem_flatten.1 hu
    obtain ⟨i, hi⟩ := List.mem_iff_getElem?.1 hpage
    exact (Table.mem_matching_iff ht).2 (h.sound (fun _ => ht) i page hi u hin)
  · intro hu
    obtain ⟨hget, hmeets, hfloor⟩ := (Table.mem_matching_iff ht).1 hu
    have hgiven := h.complete hsize (fun _ => ht) hfloor fun _ _ => ⟨u, hget, hmeets⟩
    obtain ⟨v, hv, hid⟩ := List.mem_map.1 hgiven
    -- the user given under the number is the one stored there
    obtain ⟨page, hpage, hin⟩ := List.mem_flatten.1 hv
    obtain ⟨i, hi⟩ := List.mem_iff_getElem?.1 hpage
    have hstored := (h.sound (fun _ => ht) i page hi v hin).1
    rw [hid, hget] at hstored
    cases hstored
    exact hv

/-- Reading page by page loses nobody and gives nobody twice, whatever tables the store comes to hold
between the pages.  The reading ends, in one way, with pages that are not too large.  Over all of them
the numbers rise.  Every user on a page was stored, and met the conditions, when the page was read; and
a number under which there was such a user every time is given exactly once.  If the store does not
change, the pages together are the listing without a limit, which is the stored users who meet the
conditions. -/
theorem walk_loses_nothing (hsize : f.pageSize ≠ 0) (hstores : ∀ n, (stores n).Reachable) :
    ∃ pages, (∀ others, Walk f stores 0 none others ↔ others = pages)
      ∧ (∀ page ∈ pages, page.length ≤ f.pageSize.toNat)
      ∧ (pages.flatten.Pairwise fun u v => u.id < v.id)
      ∧ (∀ i page, pages[i]? = some page →
          ∀ u ∈ page, (stores i).get? u.id = some u ∧ f.Meets u)
      ∧ (∀ k, (∀ i ≤ pages.length, ∃ u, (stores i).get? k = some u ∧ f.Meets u) →
          (pages.flatten.map (·.id)).count k = 1)
      ∧ ∀ t, (∀ n, stores n = t) →
          t.select { f with pageSize := 0, pageToken := none } = .ok pages.flatten
            ∧ ∀ u, u ∈ pages.flatten ↔ (∃ k, t.get? k = some u) ∧ f.Meets u := by
  have htidy : ∀ n, (stores n).Tidy := fun n => (hstores n).tidy
  obtain ⟨pages, hwalk⟩ := Walk.exists (f := f) htidy 0 none
  have hinorder := hwalk.ascending htidy
  refine ⟨pages, fun others => ⟨fun h => h.unique hwalk, fun h => h ▸ hwalk⟩,
    hwalk.length_le hsize, hinorder, fun i page hi u hu => ?_, fun k hthere => ?_,
    fun t hsame => ?_⟩
  · have hsound := hwalk.sound htidy i page hi u hu
    rw [Nat.zero_add] at hsound
    exact ⟨hsound.1, hsound.2.1⟩
  · have hgiven : k ∈ pages.flatten.map (·.id) := by
      refine hwalk.complete hsize htidy (Nat.zero_le _) fun i hi => ?_
      rw [Nat.zero_add]
      exact hthere i hi
    have hapart : (pages.flatten.map (·.id)).Nodup := by
      refine List.pairwise_map.2 (hinorder.imp fun {u v} hlt heq => ?_)
      rw [heq] at hlt
      exact Std.lt_irrefl hlt
    exact List.count_eq_one_of_mem hapart hgiven
  · obtain rfl : stores = fun _ => t := funext hsame
    have ht : t.Tidy := htidy 0
    rw [hwalk.flatten_eq hsize ht]
    constructor
    · show t.select { f with pageSize := 0, pageToken := none } = _
      exact congrArg Except.ok (firstPage_of_unlimited (f := { f with pageSize := 0 }) rfl)
    · intro u
      rw [Table.mem_matching_iff ht]
      constructor
      · rintro ⟨hget, hmeets, _⟩
        exact ⟨⟨u.id, hget⟩, hmeets⟩
      · rintro ⟨⟨k, hget⟩, hmeets⟩
        exact ⟨ht.get?_id (Table.mem_values_iff.2 ⟨k, hget⟩), hmeets, Nat.zero_le _⟩

/-- A user with a number and a name. -/
def reader (id : UInt32) (username : String) : User where
  id := id
  username := username
  role := .member
  status := none
  email := none
  phone := none
  profile := none
  tags := []
  metadata := .empty
  addresses := []
  createDate := none
  lastLogin := none

/-- The table after some operations on an empty one. -/
def tableAfter (ops : List Operation) : Table :=
  ops.foldl (fun t op => (t.perform .epoch op).2) .empty

theorem reachable_tableAfter (ops : List Operation) : (tableAfter ops).Reachable := by
  have hkeeps : ∀ t : Table, t.Reachable →
      (ops.foldl (fun t op => (t.perform .epoch op).2) t).Reachable := by
    induction ops with
    | nil =>
      intro t ht
      exact ht
    | cons op ops ih =>
      intro t ht
      exact ih _ (ht.perform .epoch op)
  exact hkeeps _ .empty

/-- Three users are added. -/
def arrivals : List Operation := [.add (reader 1 "ada"), .add (reader 2 "bob"), .add (reader 7 "eve")]

/-- Two of them while a listing is read: the first one goes, and the second takes their name. -/
def changesMeanwhile (n : Nat) : Table :=
  if n = 0 then tableAfter arrivals
  else tableAfter (arrivals ++
    [.delete 1, .update (withDefaults (reader 2 "ada") .epoch)])

/-- One active user at a time. -/
def oneByOne : ListFilter := { ListFilter.everyone with status := some .active, pageSize := 1 }

/-- Three pages of one user each, though the store is another one from the second page on. -/
theorem walk_loses_nothing_changesMeanwhile :
    oneByOne.pageSize ≠ 0 ∧ (∀ n, (changesMeanwhile n).Reachable)
      ∧ ∃ pages, (∀ others, Walk oneByOne changesMeanwhile 0 none others ↔ others = pages)
        ∧ pages = [[withDefaults (reader 1 "ada") .epoch], [withDefaults (reader 2 "ada") .epoch],
            [withDefaults (reader 7 "eve") .epoch]]
        ∧ (pages.flatten.map (·.id)).count 2 = 1 := by
  have hsize : oneByOne.pageSize ≠ 0 := by decide
  have hstores : ∀ n, (changesMeanwhile n).Reachable := by
    intro n
    unfold changesMeanwhile
    split
    · exact reachable_tableAfter _
    · exact reachable_tableAfter _
  obtain ⟨pages, hwalk, _, _, _, honce, _⟩ := walk_loses_nothing hsize hstores
  have hpages : Walk oneByOne changesMeanwhile 0 none [[withDefaults (reader 1 "ada") .epoch],
      [withDefaults (reader 2 "ada") .epoch], [withDefaults (reader 7 "eve") .epoch]] :=
    .next (Table.select_startingAfter _ _ _) rfl
      (.next (Table.select_startingAfter _ _ _) rfl
        (.next (Table.select_startingAfter _ _ _) rfl (.stop (Table.select_startingAfter _ _ _))))
  refine ⟨hsize, hstores, pages, hwalk, ((hwalk _).1 hpages).symm, honce 2 fun i _ => ?_⟩
  unfold changesMeanwhile
  split
  · exact ⟨withDefaults (reader 2 "bob") .epoch, rfl, ListFilter.accepts_iff.1 rfl⟩
  · exact ⟨withDefaults (reader 2 "ada") .epoch, rfl, ListFilter.accepts_iff.1 rfl⟩

end UserDirectory.Store
