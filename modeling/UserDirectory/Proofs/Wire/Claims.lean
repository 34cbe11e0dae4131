import UserDirectory.Proofs.Json.Record
import UserDirectory.Proofs.Wire.Payload
/-!
# Claims as they are sent

Claims are sent as an object.  What is written is read back; and what was read was there, each claim
under its own name and none of them twice.

Main statements: `lawful_claims`, `bears_of_read_claims`.
-/

namespace UserDirectory.Wire

open UserDirectory.Access (Claims RoleNames)
open UserDirectory.Json

/-! ## §1. Sets of role names. -/

/-- The set of some names holds these names and no others. -/
theorem ofNames_get? (names : List String) (role : String) :
    (RoleNames.ofNames names).get? role = if role ∈ names then some () else none := by
  -- the same for names that are added to a set
  have hadd : ∀ (names : List String) (set : RoleNames),
      ((names.map (·, ())).foldl (fun m e => m.insert e.1 e.2) set).get? role
        = if role ∈ names then some () else set.get? role := by
    intro names
    induction names with
    | nil => exact fun set => rfl
    | cons name names ih =>
      intro set
      rw [List.map_cons, List.foldl_cons, ih, SortedMap.get?_insert]
      by_cases hrest : role ∈ names
      · rw [if_pos hrest, if_pos (List.mem_cons_of_mem _ hrest)]
      · rw [if_neg hrest]
        by_cases hfirst : role = name
        · rw [if_pos hfirst, if_pos (List.mem_cons.2 (.inl hfirst))]
        · rw [if_neg hfirst, if_neg fun hmem => (List.mem_cons.1 hmem).elim hfirst hrest]
  exact hadd names .empty

/-- A set is that of the names it holds. -/
theorem ofNames_keys (roles : RoleNames) : RoleNames.ofNames roles.keys = roles := by
  refine SortedMap.ext_get? fun role => ?_
  rw [ofNames_get?]
  by_cases hmem : role ∈ roles.keys
  · obtain ⟨e, he, rfl⟩ := List.mem_map.1 hmem
    rw [if_pos hmem]
    exact ((roles.mem_entries_iff e.1 e.2).1 he).symm
  · rw [if_neg hmem]
    cases hget : roles.get? role with
    | none => rfl
    | some u => exact absurd (List.mem_map.2 ⟨(role, u), (roles.mem_entries_iff role u).2 hget, rfl⟩) hmem

/-! ## §2. What is written is read. -/

theorem lawful_int64 : Codec.int64.Lawful := by
  have hbounds (n : Int64) :
      -9_223_372_036_854_775_808 ≤ n.toInt ∧ n.toInt ≤ 9_223_372_036_854_775_807 :=
    ⟨n.le_toInt, Int.le_of_lt_add_one n.toInt_lt⟩
  refine Codec.lawful_whole (fun n => ?_) (fun n => ?_)
  · have := hbounds n
    omega
  · have hpos : Int64.minValue.toInt ≤ n.toInt ∧ n.toInt ≤ Int64.maxValue.toInt := hbounds n
    rw [if_pos hpos, Int64.ofInt_toInt]

theorem lawful_roleNames : roleNames.Lawful := by
  intro roles w hw
  show ((Codec.list .string).read (.ofValue w)).map RoleNames.ofNames = .ok roles
  rw [Codec.lawful_string.list roles.keys w hw]
  exact congrArg _ (ofNames_keys roles)

theorem lawful_claims : claims.Lawful := by
  refine Codec.Lawful.record ?_ fun c => rfl
  exact ⟨Codec.lawful_string, by decide, Codec.lawful_string, by decide, Codec.lawful_string,
    by decide, lawful_roleNames, by decide, Codec.lawful_string, by decide, Codec.lawful_string,
    by decide, lawful_int64, by decide, lawful_int64, by decide, lawful_int64, by decide, trivial⟩

/-! ## §3. What was read was there. -/

/-- What stands under a name in an object. -/
def under (root : Node) (name : String) : List Node :=
  match root with
  | .object members _ => nodesUnder name members
  | _ => []

/-- A name stands once in an object, and something is true of what stands under it. -/
def Once (root : Node) (name : String) (holds : Node → Prop) : Prop :=
  ∃ n, under root name = [n] ∧ holds n

/-- An object bears claims: each under its name, which comes once.  Without an address there is none,
and without role names there are none. -/
structure Bears (root : Node) (c : Claims) : Prop where
  isObject : ∃ members, root = .object members none
  userId : Once root "user_id" (·.IsTextOf c.userId)
  username : Once root "username" (·.IsTextOf c.username)
  email : Once root "email" (·.IsTextOf c.email) ∨ under root "email" = [] ∧ c.email = ""
  roles : (∃ names, Once root "roles" (·.AreTexts names) ∧ ∀ role, c.hasRole role ↔ role ∈ names)
    ∨ under root "roles" = [] ∧ ∀ role, c.hasRole role = false
  issuer : Once root "iss" (·.IsTextOf c.issuer)
  subject : Once root "sub" (·.IsTextOf c.subject)
  issuedAt : Once root "iat" (·.IsWhole c.issuedAt.toInt)
  notBefore : Once root "nbf" (·.IsWhole c.notBefore.toInt)
  expiresAt : Once root "exp" (·.IsWhole c.expiresAt.toInt)

/-- A field that must be there stands once. -/
theorem once_of_found {β : Type} {name : String} {c : Codec β}
    {members : List (Reading String × Node)} {b : β} {holds : Node → Prop}
    (h : (Field.required name c).Found members b) (hread : ∀ n, c.read n = .ok b → holds n) :
    Once (.object members none) name holds := by
  rcases h with ⟨n, hunder, hn⟩ | ⟨_, habsent⟩
  · exact ⟨n, hunder, hread n hn⟩
  · cases habsent

/-- Role names that were read are those of a list of texts. -/
theorem read_roleNames_eq_ok {n : Node} {roles : RoleNames} (h : roleNames.read n = .ok roles) :
    ∃ names, n.AreTexts names ∧ ∀ role, roles.contains role ↔ role ∈ names := by
  obtain ⟨names, hread, rfl⟩ := map_eq_ok.1 h
  refine ⟨names, Codec.read_list_string_eq_ok hread, fun role => ?_⟩
  unfold SortedMap.contains
  rw [ofNames_get?]
  split
  · exact ⟨fun _ => ‹_›, fun _ => rfl⟩
  · exact ⟨fun h => absurd h Bool.false_ne_true, fun h => absurd h ‹_›⟩

/-- Claims that were read from an object are those it bears. -/
theorem bears_of_read_claims {members : List (Reading String × Node)} {ending : Option Break}
    {c : Claims} (h : claims.read (.object members ending) = .ok c) :
    Bears (.object members ending) c := by
  rcases Codec.read_record_eq_ok (by decide) h with
    ⟨_, t, hnode, hfound, hmade⟩ | ⟨_, _, hnode, _, _⟩
  · cases hnode
    obtain ⟨huser, hname, hemail, hroles, hissuer, hsubject, hissued, hbefore, hexpires, _⟩ := hfound
    cases hmade
    exact
      { isObject := ⟨members, rfl⟩
        userId := once_of_found huser fun _ => Codec.read_string_eq_ok
        username := once_of_found hname fun _ => Codec.read_string_eq_ok
        email := by
          rcases hemail with ⟨n, hunder, hn⟩ | ⟨hunder, habsent⟩
          · exact .inl ⟨n, hunder, Codec.read_string_eq_ok hn⟩
          · exact .inr ⟨hunder, (Option.some.inj habsent).symm⟩
        roles := by
          rcases hroles with ⟨n, hunder, hn⟩ | ⟨hunder, habsent⟩
          · obtain ⟨names, htexts, hmem⟩ := read_roleNames_eq_ok hn
            exact .inl ⟨names, ⟨n, hunder, htexts⟩, hmem⟩
          · refine .inr ⟨hunder, fun role => ?_⟩
            have hempty := (Option.some.inj habsent).symm
            show SortedMap.contains _ role = false
            rw [hempty]
            rfl
        issuer := once_of_found hissuer fun _ => Codec.read_string_eq_ok
        subject := once_of_found hsubject fun _ => Codec.read_string_eq_ok
        issuedAt := once_of_found hissued fun _ => Codec.read_int64_eq_ok
        notBefore := once_of_found hbefore fun _ => Codec.read_int64_eq_ok
        expiresAt := once_of_found hexpires fun _ => Codec.read_int64_eq_ok }
  · cases hnode

end UserDirectory.Wire
