import Clearance.Proofs.Policy.Tier

/-!
# AND lists of role tiers

A tier that stands in an AND list brings `|` into it, and the delimiter that occurs more often then
decides how the whole segment is read. `evaluate_conjunction` says what comes of it. While the tiers
add fewer names than the list has tokens, no conjunct is lost: the policy is granted only if every
token holds, and only if no tier adds a name at all. From then on the segment is an OR list, and a
name that has no `&` beside it is enough (`conjunct_lost`).
-/

namespace Clearance

open Text (unglued grouped)

/-! ## Groups of names as a segment -/

section
variable {groups : List (List String)}

/-- The names that the groups have after their first ones. -/
def further (groups : List (List String)) : List String := groups.flatMap List.tail

theorem toList_join_groups (groups : List (List String)) :
    (Text.join '&' (groups.map (Text.join '|'))).toList =
      grouped '&' '|' (groups.map (List.map String.toList)) := by
  rw [Text.toList_join, grouped, List.map_map, List.map_map]
  congr 1
  exact List.map_congr_left fun g _ => Text.toList_join '|' g

/-- A segment of groups has one conjunct for each group. -/
theorem split_and_join_groups (hne : groups ≠ []) (hl : ∀ g ∈ groups, ∀ n ∈ g, IsListable n) :
    Text.split '&' (Text.join '&' (groups.map (Text.join '|'))) =
      groups.map (Text.join '|') := by
  refine Text.split_join '&' (fun p hp => ?_) (by simpa using hne)
  obtain ⟨g, hg, rfl⟩ := List.mem_map.1 hp
  exact Text.notMem_join (by decide) fun n hn => (hl g hg n hn).1

/-- A conjunct of two or more names holds the other delimiter, so that no claim set has it. -/
theorem eq_singleton_of_mem {claims : NameSet} {g : List String}
    (hfree : ∀ r ∈ claims, IsListable r) (hg : g ≠ []) (hmem : Text.join '|' g ∈ claims) :
    ∃ n, g = [n] := by
  have hbar := (hfree _ hmem).2
  match g, hg with
  | [n], _ => exact ⟨n, rfl⟩
  | a :: b :: rest, _ => exact absurd (by simp [Text.toList_join]) hbar

/-- The conjuncts of a segment of groups are all in a claim set exactly if each group is one name
and the claim set has it. -/
theorem forall_join_mem_iff {claims : NameSet} (hfree : ∀ r ∈ claims, IsListable r)
    (hg : ∀ g ∈ groups, g ≠ []) :
    (∀ g ∈ groups, Text.join '|' g ∈ claims) ↔
      further groups = [] ∧ ∀ g ∈ groups, ∃ n ∈ g, n ∈ claims := by
  have hone : ∀ n : String, Text.join '|' [n] = n := fun n => by simp [Text.join]
  constructor
  · intro h
    have hsingle : ∀ g ∈ groups, ∃ n, g = [n] :=
      fun g hmem => eq_singleton_of_mem hfree (hg g hmem) (h g hmem)
    refine ⟨List.flatMap_eq_nil_iff.2 fun g hmem => ?_, fun g hmem => ?_⟩
    · obtain ⟨n, rfl⟩ := hsingle g hmem
      rfl
    · obtain ⟨n, rfl⟩ := hsingle g hmem
      exact ⟨n, List.mem_cons_self, hone n ▸ h _ hmem⟩
  · rintro ⟨hnil, h⟩ g hmem
    obtain ⟨n, rest, rfl⟩ := List.exists_cons_of_ne_nil (hg g hmem)
    obtain rfl : rest = [] := List.flatMap_eq_nil_iff.1 hnil _ hmem
    obtain ⟨m, hm, hclaim⟩ := h _ hmem
    rw [hone]
    exact List.mem_singleton.1 hm ▸ hclaim

/-- The names of listable groups hold neither delimiter. -/
theorem delimiters_notMem {groups : List (List String)}
    (hl : ∀ g ∈ groups, ∀ n ∈ g, IsListable n) :
    ∀ g ∈ groups.map (List.map String.toList), ∀ n ∈ g, '&' ∉ n ∧ '|' ∉ n := by
  intro g hmem n hn
  obtain ⟨names, hnames, rfl⟩ := List.mem_map.1 hmem
  obtain ⟨name, hname, rfl⟩ := List.mem_map.1 hn
  exact hl names hnames name hname

theorem map_toList_ne_nil (hg : ∀ g ∈ groups, g ≠ []) :
    ∀ g ∈ groups.map (List.map String.toList), g ≠ [] := by
  intro g hmem
  obtain ⟨names, hnames, rfl⟩ := List.mem_map.1 hmem
  simpa using hg names hnames

/-- A segment of groups has one alternative for each name after the first ones, and one more. -/
theorem length_split_or_join_groups {group : List String} {rest : List (List String)}
    (hg : ∀ g ∈ group :: rest, g ≠ []) (hl : ∀ g ∈ group :: rest, ∀ n ∈ g, IsListable n) :
    (Text.split '|' (Text.join '&' ((group :: rest).map (Text.join '|')))).length =
      (further (group :: rest)).length + 1 := by
  have hchar := delimiters_notMem hl
  have hlen := Text.length_splitOn_grouped (c := '&') (d := '|') (by decide) (map_toList_ne_nil hg)
    fun g hmem n hn => (hchar g hmem n hn).2
  rw [← List.map_cons, ← toList_join_groups, ← Text.map_toList_split, List.length_map] at hlen
  rw [hlen, further, List.flatMap_map, List.length_flatMap, List.length_flatMap]
  simp

/-- An alternative of a segment of groups is in a claim set exactly if it is a name that is glued
to no other. -/
theorem any_split_or_iff {claims : NameSet} {group : List String} {rest : List (List String)}
    (hfree : ∀ r ∈ claims, IsListable r) (hg : ∀ g ∈ group :: rest, g ≠ [])
    (hl : ∀ g ∈ group :: rest, ∀ n ∈ g, IsListable n) :
    (∃ p ∈ Text.split '|' (Text.join '&' ((group :: rest).map (Text.join '|'))), p ∈ claims) ↔
      ∃ n ∈ unglued group rest, n ∈ claims := by
  have hchar := delimiters_notMem hl
  obtain ⟨hpieces, -⟩ := Text.filter_splitOn_grouped (c := '&') (d := '|') (by decide)
    (map_toList_ne_nil hg) (fun g hmem n hn => (hchar g hmem n hn).2)
    fun g hmem n hn => (hchar g hmem n hn).1
  rw [← List.map_cons, ← toList_join_groups, ← Text.map_toList_split, ← Text.map_unglued]
    at hpieces
  -- A name of a claim set holds no `&`, so that the filter keeps it.
  have hmem : ∀ p ∈ claims,
      p ∈ Text.split '|' (Text.join '&' ((group :: rest).map (Text.join '|'))) ↔
        p ∈ unglued group rest := by
    intro p hp
    have h := congrArg (p.toList ∈ ·) hpieces
    simpa [(hfree p hp).1, String.toList_inj] using h
  constructor
  · rintro ⟨p, hp, hclaim⟩
    exact ⟨p, (hmem p hclaim).1 hp, hclaim⟩
  · rintro ⟨p, hp, hclaim⟩
    exact ⟨p, (hmem p hclaim).2 hp, hclaim⟩

/-- Two or more groups have the delimiter of AND lists between them. -/
theorem and_mem_join_groups (group next : List String) (rest : List (List String)) :
    '&' ∈ (Text.join '&' ((group :: next :: rest).map (Text.join '|'))).toList := by
  rw [Text.toList_join, List.map_cons, List.map_cons, List.map_cons, List.map_cons,
    List.intercalate_cons_cons]
  simp

/-- **Two readings.** A segment of two or more groups is satisfied as an AND list only if each group
is one name, and as an OR list only if the groups have at least as many further names as there are
groups. In between nothing satisfies it. -/
theorem satisfies_groups_iff {claims : NameSet} {group next : List String}
    {rest : List (List String)} (hfree : ∀ r ∈ claims, IsListable r)
    (hg : ∀ g ∈ group :: next :: rest, g ≠ [])
    (hl : ∀ g ∈ group :: next :: rest, ∀ n ∈ g, IsListable n) :
    satisfies claims (Text.join '&' ((group :: next :: rest).map (Text.join '|'))) = true ↔
      (further (group :: next :: rest) = [] ∧
          ∀ g ∈ group :: next :: rest, ∃ n ∈ g, n ∈ claims) ∨
        ((group :: next :: rest).length ≤ (further (group :: next :: rest)).length ∧
          ∃ n ∈ unglued group (next :: rest), n ∈ claims) := by
  have hconjuncts := split_and_join_groups (List.cons_ne_nil _ _) hl
  have halternatives := length_split_or_join_groups hg hl
  have hall := forall_join_mem_iff hfree hg
  have hany := any_split_or_iff hfree hg hl
  have hand := and_mem_join_groups group next rest
  have htwo : 2 ≤ (group :: next :: rest).length := by simp
  generalize group :: next :: rest = groups at *
  generalize Text.join '&' (groups.map (Text.join '|')) = segment at *
  have hlong : ¬ (segment = "" ∨ segment = wildcard) := by
    rintro (rfl | rfl) <;> exact absurd hand (by decide)
  have hsat : satisfies claims segment = true ↔
      (if groups.length = (further groups).length + 1 then Requirement.exact segment
        else if (further groups).length + 1 < groups.length then .all (groups.map (Text.join '|'))
        else .any (Text.split '|' segment)).admits claims = true := by
    unfold satisfies Requirement.ofSegment
    rw [if_neg hlong]
    simp only [hconjuncts, halternatives, List.length_map]
  rw [hsat]
  -- A tie asks for the whole segment, which holds `&` and so is in no claim set.
  by_cases htie : groups.length = (further groups).length + 1
  · rw [if_pos htie]
    have hout : segment ∉ claims := fun hmem => (hfree segment hmem).1 hand
    constructor
    · intro h
      exact absurd (Requirement.admits_exact_iff.1 h) hout
    · rintro (⟨hnil, -⟩ | ⟨hle, -⟩)
      · rw [hnil, List.length_nil] at htie
        omega
      · omega
  · rw [if_neg htie]
    by_cases hlt : (further groups).length + 1 < groups.length
    · rw [if_pos hlt, Requirement.admits_all_iff, List.forall_mem_map, hall]
      constructor
      · exact .inl
      · rintro (h | ⟨hle, -⟩)
        · exact h
        · omega
    · rw [if_neg hlt, Requirement.admits_any_iff, hany]
      constructor
      · intro h
        exact .inr ⟨by omega, h⟩
      · rintro (⟨hnil, -⟩ | ⟨-, h⟩)
        · rw [hnil, List.length_nil] at hlt htie
          omega
        · exact h

end

/-! ## AND lists -/

section
variable {h : Hierarchy} {tokens : List RoleToken}

/-- The names that expansion adds to a list of tokens. -/
def Hierarchy.added (h : Hierarchy) (tokens : List RoleToken) : List String :=
  further (tokens.map (RoleToken.names h))

/-- The names of a list of tokens that have no `&` beside them after expansion. -/
def Hierarchy.apart (h : Hierarchy) : List RoleToken → List String
  | [] => []
  | t :: rest => unglued (t.names h) (rest.map (RoleToken.names h))

/-- **AND lists.** In an unambiguous hierarchy, and for roles without list delimiters, an AND list of
two or more well-formed tokens that adds fewer names than it has tokens is granted exactly if it
adds none and every token holds. One that adds as many names or more is granted exactly if the roles
have a name that stands apart from every `&`. -/
theorem evaluate_conjunction (hh : h.Unambiguous) (htwo : 2 ≤ tokens.length)
    (hwf : ∀ t ∈ tokens, t.IsWellFormed h) {claims : ClaimSet}
    (hfree : ∀ r ∈ claims.roles, IsListable r) :
    ((h.added tokens).length < tokens.length →
      evaluate ("*:" ++ Text.join '&' (tokens.map RoleToken.text) ++ ":*") claims h =
        if h.added tokens = [] ∧ ∀ t ∈ tokens, t.Holds h claims.roles then .ok ()
        else .error .notInRoles) ∧
    (tokens.length ≤ (h.added tokens).length →
      evaluate ("*:" ++ Text.join '&' (tokens.map RoleToken.text) ++ ":*") claims h =
        if ∃ q ∈ h.apart tokens, q ∈ claims.roles then .ok () else .error .notInRoles) := by
  have hgroups := RoleToken.map_names_ne_nil hwf
  have hlistable : ∀ g ∈ tokens.map (RoleToken.names h), ∀ n ∈ g, IsListable n := by
    intro g hg n hn
    obtain ⟨t, ht, rfl⟩ := List.mem_map.1 hg
    exact (RoleToken.isPlainName_of_mem_names hh (hwf t ht) hn).isListable
  have hholds : (∀ g ∈ tokens.map (RoleToken.names h), ∃ n ∈ g, n ∈ claims.roles) ↔
      ∀ t ∈ tokens, t.Holds h claims.roles := by
    simp [RoleToken.holds_iff hh.distinct]
  have hsat : satisfies claims.roles
        (Text.join '&' ((tokens.map (RoleToken.names h)).map (Text.join '|'))) = true ↔
      (h.added tokens = [] ∧ ∀ t ∈ tokens, t.Holds h claims.roles) ∨
        (tokens.length ≤ (h.added tokens).length ∧ ∃ q ∈ h.apart tokens, q ∈ claims.roles) := by
    obtain ⟨t, u, rest, rfl⟩ : ∃ t u rest, tokens = t :: u :: rest := by
      match tokens, htwo with
      | t :: u :: rest, _ => exact ⟨t, u, rest, rfl⟩
    have hiff := satisfies_groups_iff hfree hgroups hlistable
    simp only [← List.map_cons, hholds, List.length_map] at hiff
    exact hiff
  rw [evaluate_join_tokens (.inl rfl) hh hwf, require]
  constructor
  · intro hlt
    refine if_congr (hsat.trans ⟨?_, .inl⟩) rfl rfl
    rintro (h | ⟨hle, -⟩)
    · exact h
    · omega
  · intro hle
    refine if_congr (hsat.trans ⟨?_, fun h => .inr ⟨hle, h⟩⟩) rfl rfl
    rintro (⟨hnil, -⟩ | ⟨-, h⟩)
    · rw [hnil, List.length_nil] at hle
      omega
    · exact h

/-- Under `member`, `lead`, `admin` the first tier adds no name to `member+&auditor`, so that both
are asked for, and the last one adds two to `admin+&auditor`, where `lead` stands apart. -/
theorem evaluate_tier_and_auditor :
    evaluate ("*:" ++ Text.join '&'
          ([.ascending "member", .plain "auditor"].map RoleToken.text) ++ ":*")
        ⟨none, ∅, NameSet.ofList ["member", "auditor"], ∅⟩ ⟨["member", "lead", "admin"]⟩ = .ok () ∧
      evaluate ("*:" ++ Text.join '&'
          ([.ascending "admin", .plain "auditor"].map RoleToken.text) ++ ":*")
        ⟨none, ∅, NameSet.ofList ["lead"], ∅⟩ ⟨["member", "lead", "admin"]⟩ = .ok () := by
  have hboth : ∀ r ∈ (NameSet.ofList ["member", "auditor"]).toList, IsListable r := by
    decide +kernel
  have hlead : ∀ r ∈ (NameSet.ofList ["lead"]).toList, IsListable r := by decide +kernel
  constructor
  · exact ((evaluate_conjunction (by decide +kernel) (by decide) (by decide +kernel) hboth).1
      (by decide +kernel)).trans (if_pos (by decide +kernel))
  · exact ((evaluate_conjunction (by decide +kernel) (by decide) (by decide +kernel) hlead).2
      (by decide +kernel)).trans (if_pos (by decide +kernel))

/-- A conjunct can be lost: under `member`, `lead`, `admin` the role `lead` satisfies
`admin+&auditor`, which expands to `admin|lead|member&auditor`. -/
theorem conjunct_lost :
    ¬ ∀ (h : Hierarchy) (tokens : List RoleToken) (claims : ClaimSet), h.Unambiguous →
      2 ≤ tokens.length → (∀ t ∈ tokens, t.IsWellFormed h) → (∀ r ∈ claims.roles, IsListable r) →
      evaluate ("*:" ++ Text.join '&' (tokens.map RoleToken.text) ++ ":*") claims h = .ok () →
      ∀ t ∈ tokens, t.Holds h claims.roles := by
  intro hall
  have hfree : ∀ r ∈ (NameSet.ofList ["lead"]).toList, IsListable r := by decide +kernel
  have hgranted : evaluate ("*:" ++ Text.join '&'
        ([.ascending "admin", .plain "auditor"].map RoleToken.text) ++ ":*")
      ⟨none, ∅, NameSet.ofList ["lead"], ∅⟩ ⟨["member", "lead", "admin"]⟩ = .ok () := by
    decide +kernel
  have hlost := hall _ _ _ (by decide +kernel) (by decide) (by decide +kernel) hfree hgranted
    (.plain "auditor") (by decide)
  exact absurd hlost (by decide +kernel)

end

end Clearance
