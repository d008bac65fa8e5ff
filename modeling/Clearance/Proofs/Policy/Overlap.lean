import Clearance.Proofs.Policy.Tier

/-!
# Tiers of overlapping names

A role name may end with another one, and then a mark behind the longer name is also a mark behind
the shorter one. A pass reads it for the first role in its order that the name ends with, declared
or not: `Hierarchy.lastEnding?` for `+` and `Hierarchy.firstEnding?` for `-`. The name stays, and
behind it come the roles beyond the one found (`Hierarchy.rewritten_name`). `evaluate_marked_name`
says what such a policy asks for. It can be a role outside the tier of the name
(`tier_of_longer_name`).
-/

namespace Clearance

namespace Hierarchy

/-- The role names are distinct and plain, and none is the wildcard. One may be a suffix of
another. -/
structure IsPlain (h : Hierarchy) : Prop where
  distinct : h.roles.Nodup
  plain : ∀ r ∈ h.roles, IsPlainName r ∧ r ≠ wildcard

instance (h : Hierarchy) : Decidable h.IsPlain :=
  decidable_of_iff (h.roles.Nodup ∧ ∀ r ∈ h.roles, IsPlainName r ∧ r ≠ wildcard)
    ⟨fun ⟨h₁, h₂⟩ => ⟨h₁, h₂⟩, fun ⟨h₁, h₂⟩ => ⟨h₁, h₂⟩⟩

/-- The first role in an order that a name ends with. -/
def ending? (order : List String) (name : String) : Option String :=
  order.find? (·.toList <:+ name.toList)

/-- The last declared role that a name ends with, for which a `+` behind the name is read. -/
def lastEnding? (h : Hierarchy) (name : String) : Option String := ending? h.roles.reverse name

/-- The first declared role that a name ends with, for which a `-` behind the name is read. -/
def firstEnding? (h : Hierarchy) (name : String) : Option String := ending? h.roles name

/-! ## Endings -/

section
variable {order : List String} {name role : String}

theorem mem_of_ending? (h : ending? order name = some role) : role ∈ order :=
  List.mem_of_find?_eq_some h

theorem suffix_of_ending? (h : ending? order name = some role) : role.toList <:+ name.toList := by
  simpa using List.find?_some h

theorem ending?_eq_none_iff :
    ending? order name = none ↔ ∀ r ∈ order, ¬ r.toList <:+ name.toList := by
  simp [ending?]

/-- A role that a name ends with is found if the name ends with none of those before it. -/
theorem ending?_of_eq_append {before after : List String}
    (horder : order = before ++ role :: after) (hsuf : role.toList <:+ name.toList)
    (hfirst : ∀ r ∈ before, ¬ r.toList <:+ name.toList) : ending? order name = some role := by
  refine List.find?_eq_some_iff_append.2 ⟨by simpa using hsuf, before, after, horder, ?_⟩
  simpa using hfirst

/-- The wildcard ends with no other name. -/
theorem ne_wildcard_of_ending? (ho : ∀ r ∈ order, r ≠ "" ∧ r ≠ wildcard)
    (h : ending? order name = some role) : name ≠ wildcard := by
  rintro rfl
  obtain ⟨hne, hstar⟩ := ho role (mem_of_ending? h)
  have hsuf : role.toList <:+ ['*'] := suffix_of_ending? h
  rcases List.suffix_cons_iff.1 hsuf with hsame | hsuf
  · exact hstar (String.toList_inj.1 hsame)
  · exact hne (String.toList_eq_nil_iff.1 (List.suffix_nil.1 hsuf))

end

section
variable {h : Hierarchy} {role r : String}

/-- Going backwards from a role one meets the roles declared before it. -/
theorem mem_tail_dropWhile_reverse (hd : h.roles.Nodup) (hr : role ∈ h.roles) :
    r ∈ (h.roles.reverse.dropWhile (· != role)).tail ↔
      r ∈ h.roles ∧ h.position r < h.position role := by
  have hlt : h.position role < h.roles.length := List.idxOf_lt_length_of_mem hr
  have hcut : (h.roles.take (h.position role + 1)).dropLast = h.roles.take (h.position role) := by
    rw [List.dropLast_eq_take, List.take_take, List.length_take]
    congr 1
    omega
  rw [RoleToken.dropWhile_reverse hd hr, RoleToken.names, List.tail_reverse, List.mem_reverse, hcut]
  constructor
  · intro hmem
    have hroles := List.mem_of_mem_take hmem
    exact ⟨hroles, (List.mem_take_iff_idxOf_lt hroles).1 hmem⟩
  · rintro ⟨hroles, hbefore⟩
    exact (List.mem_take_iff_idxOf_lt hroles).2 hbefore

/-- Going forwards from a role one meets the roles declared after it. -/
theorem mem_tail_dropWhile (hd : h.roles.Nodup) (hr : role ∈ h.roles) :
    r ∈ (h.roles.dropWhile (· != role)).tail ↔
      r ∈ h.roles ∧ h.position role < h.position r := by
  rw [RoleToken.dropWhile_roles hd hr, RoleToken.names, List.tail_drop]
  constructor
  · intro hmem
    have hroles := List.mem_of_mem_drop hmem
    exact ⟨hroles, (mem_drop_iff hd hroles).1 hmem⟩
  · rintro ⟨hroles, hlt⟩
    exact (mem_drop_iff hd hroles).2 hlt

end

/-! ## Marked names -/

section
variable {mark : Char} {order : List String} {name role : String}

/-- A pass writes a marked name that ends with a role as the name and the roles beyond that role in
its order. -/
theorem rewritten_name (h : ending? order name = some role) :
    rewritten mark (order.map String.toList) name.toList =
      (Text.join '|' (name :: (order.dropWhile (· != role)).tail)).toList := by
  have hfind : (order.map String.toList).find? (· <:+ name.toList) = some role.toList := by
    rw [List.find?_map]
    exact congrArg (Option.map String.toList) h
  obtain ⟨before, after, rfl, hbefore⟩ := List.eq_append_cons_of_mem (mem_of_ending? h)
  have hwhole : name.toList.take (name.toList.length - role.toList.length) ++ role.toList =
      name.toList := List.suffix_iff_eq_append.1 (suffix_of_ending? h)
  rw [rewritten, hfind]
  simp only
  rw [tier_map_toList, dropWhile_bne_append hbefore, Text.toList_join, Text.toList_join,
    List.tail_cons, List.map_cons, List.map_cons]
  cases after with
  | nil => simpa using hwhole
  | cons q after =>
    rw [List.map_cons, List.intercalate_cons_cons, List.intercalate_cons_cons, ← hwhole]
    simp

/-- A pass leaves a marked name alone that ends with no role. -/
theorem rewritten_of_ending?_eq_none (h : ending? order name = none) :
    rewritten mark (order.map String.toList) name.toList = name.toList ++ [mark] := by
  have hfind : (order.map String.toList).find? (· <:+ name.toList) = none := by
    rw [List.find?_map]
    exact congrArg (Option.map String.toList) h
  rw [rewritten, hfind]

/-- What a claim set must hold for a marked name: the name ends with a role, and the claim set has
the name or a role beyond that one. -/
theorem satisfies_rewritten_iff (hmark : mark = '+' ∨ mark = '-') (hn : IsPlainName name)
    (ho : ∀ r ∈ order, IsPlainName r ∧ r ≠ wildcard) {roles : NameSet}
    (hfree : ∀ r ∈ roles, mark ∉ r.toList) :
    satisfies roles (String.ofList (rewritten mark (order.map String.toList) name.toList)) = true ↔
      ∃ q ∈ ending? order name,
        name ∈ roles ∨ ∃ r ∈ (order.dropWhile (· != q)).tail, r ∈ roles := by
  cases hend : ending? order name with
  | none =>
    have htext : String.ofList (rewritten mark (order.map String.toList) name.toList) =
        name.push mark := by
      rw [rewritten_of_ending?_eq_none hend]
      exact String.toList_inj.1 (by simp)
    have hlist : IsListable (name.push mark) := by
      have hname := hn.isListable
      rcases hmark with rfl | rfl <;> simpa [IsListable] using hname
    have hmem : mark ∈ (name.push mark).toList := by simp
    have hempty : name.push mark ≠ "" := fun e => by simp [e] at hmem
    have hstar : name.push mark ≠ wildcard := by
      intro e
      rw [e] at hmem
      rcases hmark with rfl | rfl <;> exact absurd hmem (by decide)
    rw [htext, satisfies_name hlist hempty hstar]
    constructor
    · intro hin
      exact absurd hmem (hfree _ hin)
    · rintro ⟨q, hq, -⟩
      cases hq
  | some q =>
    have hstar := ne_wildcard_of_ending? (fun r hr => ⟨(ho r hr).1.1, (ho r hr).2⟩) hend
    have hnames : ∀ n ∈ name :: (order.dropWhile (· != q)).tail, IsPlainName n ∧ n ≠ wildcard := by
      intro n hmem
      rcases List.mem_cons.1 hmem with rfl | hmem
      · exact ⟨hn, hstar⟩
      · exact ho n ((List.dropWhile_sublist _).mem (List.mem_of_mem_tail hmem))
    rw [rewritten_name hend, String.ofList_toList,
      satisfies_join (fun n hmem => (hnames n hmem).1.isListable) (List.cons_ne_nil _ _)]
    · simp
    · intro n hsole
      obtain ⟨hplain, hne⟩ := hnames n (hsole ▸ List.mem_cons_self)
      exact ⟨hplain.1, hne⟩

end

end Hierarchy

/-! ## Declared names -/

section
variable {h : Hierarchy} {name : String}

/-- If no ending of a declared name is declared after it, a `+` behind the name is read for it. -/
theorem Hierarchy.lastEnding?_eq_some (hd : h.roles.Nodup) (hr : name ∈ h.roles)
    (hlast : ∀ q ∈ h.roles, q.toList <:+ name.toList → h.position q ≤ h.position name) :
    h.lastEnding? name = some name := by
  obtain ⟨before, after, hroles, -, hafter, hpos⟩ := exists_around hd hr
  have hskip : ∀ q ∈ after, ¬ q.toList <:+ name.toList := by
    intro q hq hsuf
    have hmem : q ∈ h.roles := by simp [hroles, hq]
    have hle := hlast q hmem hsuf
    have hdrop : q ∈ h.roles.drop (h.position name + 1) := by
      rw [hpos, hroles, ← List.drop_drop, List.drop_left]
      simpa using hq
    have hlt := (mem_drop_iff hd hmem).1 hdrop
    omega
  have horder : h.roles.reverse = after.reverse ++ name :: before.reverse := by simp [hroles]
  exact ending?_of_eq_append horder List.suffix_rfl fun q hq => hskip q (List.mem_reverse.1 hq)

/-- If no ending of a declared name is declared before it, a `-` behind the name is read for it. -/
theorem Hierarchy.firstEnding?_eq_some (hd : h.roles.Nodup) (hr : name ∈ h.roles)
    (hfirst : ∀ q ∈ h.roles, q.toList <:+ name.toList → h.position name ≤ h.position q) :
    h.firstEnding? name = some name := by
  obtain ⟨before, after, hroles, hbefore, -, hpos⟩ := exists_around hd hr
  have hskip : ∀ q ∈ before, ¬ q.toList <:+ name.toList := by
    intro q hq hsuf
    have hmem : q ∈ h.roles := by simp [hroles, hq]
    have hle := hfirst q hmem hsuf
    have htake : q ∈ h.roles.take (h.position name) := by
      rw [hpos, hroles, List.take_left]
      exact hq
    have hlt : h.position q < h.position name := (List.mem_take_iff_idxOf_lt hmem).1 htake
    omega
  exact ending?_of_eq_append hroles List.suffix_rfl hskip

/-- A declared role and the roles before it are its tier upwards. -/
theorem RoleToken.holds_ascending_iff (hr : name ∈ h.roles) {roles : NameSet} :
    (ascending name).Holds h roles ↔
      name ∈ roles ∨ ∃ r ∈ h.roles, h.position r < h.position name ∧ r ∈ roles := by
  constructor
  · rintro ⟨r, hmem, hle, hin⟩
    rcases Nat.lt_or_eq_of_le hle with hlt | heq
    · exact .inr ⟨r, hmem, hlt, hin⟩
    · exact .inl ((List.idxOf_inj hmem).1 heq ▸ hin)
  · rintro (hin | ⟨r, hmem, hlt, hin⟩)
    · exact ⟨name, hr, Nat.le_refl _, hin⟩
    · exact ⟨r, hmem, Nat.le_of_lt hlt, hin⟩

/-- A declared role and the roles after it are its tier downwards. -/
theorem RoleToken.holds_descending_iff (hr : name ∈ h.roles) {roles : NameSet} :
    (descending name).Holds h roles ↔
      name ∈ roles ∨ ∃ r ∈ h.roles, h.position name < h.position r ∧ r ∈ roles := by
  constructor
  · rintro ⟨r, hmem, hle, hin⟩
    rcases Nat.lt_or_eq_of_le hle with hlt | heq
    · exact .inr ⟨r, hmem, hlt, hin⟩
    · exact .inl ((List.idxOf_inj hr).1 heq ▸ hin)
  · rintro (hin | ⟨r, hmem, hlt, hin⟩)
    · exact ⟨name, hr, Nat.le_refl _, hin⟩
    · exact ⟨r, hmem, Nat.le_of_lt hlt, hin⟩

end

/-! ## Policies with marked names -/

section
variable {h : Hierarchy} {name : String}

/-- Plain role names hold no mark. -/
theorem Hierarchy.IsPlain.notMem (hh : h.IsPlain) {mark : Char} (hm : mark = '+' ∨ mark = '-') :
    ∀ r ∈ h.roles.map String.toList, mark ∉ r := by
  intro r hr
  obtain ⟨q, hq, rfl⟩ := List.mem_map.1 hr
  exact (hh.plain q hq).1.2 mark (by rcases hm with rfl | rfl <;> simp)

/-- The policy for `name+` asks for what the backward pass makes of the name. -/
theorem evaluate_ascending (hh : h.IsPlain) (hn : IsPlainName name) (claims : ClaimSet) :
    evaluate ("*:" ++ (RoleToken.ascending name).text ++ ":*") claims h =
      require claims.roles
        (String.ofList (Hierarchy.rewritten '+' (h.roles.reverse.map String.toList) name.toList))
        .notInRoles := by
  have hcolon : ':' ∉ (RoleToken.ascending name).text.toList := by
    simpa [RoleToken.text] using hn.2 ':' (by simp)
  rw [evaluate_roles hcolon, Hierarchy.expand, RoleToken.text, String.toList_append,
    List.map_reverse]
  exact congrArg (require claims.roles · .notInRoles) (congrArg String.ofList
    (Hierarchy.expandChars_concat_plus (hn.2 '+' (by simp)) (hn.2 '-' (by simp))
      (hh.notMem (.inl rfl)) (hh.notMem (.inr rfl))))

/-- The policy for `name-` asks for what the forward pass makes of the name. -/
theorem evaluate_descending (hh : h.IsPlain) (hn : IsPlainName name) (claims : ClaimSet) :
    evaluate ("*:" ++ (RoleToken.descending name).text ++ ":*") claims h =
      require claims.roles
        (String.ofList (Hierarchy.rewritten '-' (h.roles.map String.toList) name.toList))
        .notInRoles := by
  have hcolon : ':' ∉ (RoleToken.descending name).text.toList := by
    simpa [RoleToken.text] using hn.2 ':' (by simp)
  rw [evaluate_roles hcolon, Hierarchy.expand, RoleToken.text, String.toList_append]
  exact congrArg (require claims.roles · .notInRoles) (congrArg String.ofList
    (Hierarchy.expandChars_concat_minus (hn.2 '+' (by simp)) (hn.2 '-' (by simp))
      (hh.notMem (.inr rfl))))

/-- The policy for `name+` is granted exactly if the name ends with a declared role and the roles
hold the name or a role declared before the last such role. -/
theorem evaluate_ascending_eq_ite (hh : h.IsPlain) (hn : IsPlainName name) (claims : ClaimSet)
    (hfree : ∀ r ∈ claims.roles, '+' ∉ r.toList) :
    evaluate ("*:" ++ (RoleToken.ascending name).text ++ ":*") claims h =
      if ∃ q ∈ h.lastEnding? name, name ∈ claims.roles ∨
          ∃ r ∈ h.roles, h.position r < h.position q ∧ r ∈ claims.roles
        then .ok () else .error .notInRoles := by
  have hplain : ∀ r ∈ h.roles.reverse, IsPlainName r ∧ r ≠ wildcard :=
    fun r hr => hh.plain r (List.mem_reverse.1 hr)
  refine (evaluate_ascending hh hn claims).trans (if_congr ?_ rfl rfl)
  rw [Hierarchy.satisfies_rewritten_iff (.inl rfl) hn hplain hfree]
  refine exists_congr fun q => and_congr_right fun hq => or_congr_right ?_
  have hmem := List.mem_reverse.1 (Hierarchy.mem_of_ending? hq)
  simp only [Hierarchy.mem_tail_dropWhile_reverse hh.distinct hmem, and_assoc]

/-- The policy for `name-` is granted exactly if the name ends with a declared role and the roles
hold the name or a role declared after the first such role. -/
theorem evaluate_descending_eq_ite (hh : h.IsPlain) (hn : IsPlainName name) (claims : ClaimSet)
    (hfree : ∀ r ∈ claims.roles, '-' ∉ r.toList) :
    evaluate ("*:" ++ (RoleToken.descending name).text ++ ":*") claims h =
      if ∃ q ∈ h.firstEnding? name, name ∈ claims.roles ∨
          ∃ r ∈ h.roles, h.position q < h.position r ∧ r ∈ claims.roles
        then .ok () else .error .notInRoles := by
  refine (evaluate_descending hh hn claims).trans (if_congr ?_ rfl rfl)
  rw [Hierarchy.satisfies_rewritten_iff (.inr rfl) hn hh.plain hfree]
  refine exists_congr fun q => and_congr_right fun hq => or_congr_right ?_
  simp only [Hierarchy.mem_tail_dropWhile hh.distinct (Hierarchy.mem_of_ending? hq), and_assoc]

/-- **Marked names.** In a hierarchy of distinct plain names, for roles without marks, the policy
for `name+` is granted exactly if the name ends with a declared role and the roles hold the name or
a role declared before the last such role, and the policy for `name-` exactly if it ends with one
and the roles hold the name or a role declared after the first such role. So a name that ends with
no declared role is refused, and a declared name asks for its tier if none of its endings is
declared after it or, for `-`, before it. -/
theorem evaluate_marked_name (hh : h.IsPlain) (hn : IsPlainName name) (claims : ClaimSet)
    (hfree : ∀ r ∈ claims.roles, '+' ∉ r.toList ∧ '-' ∉ r.toList) :
    let upwards := evaluate ("*:" ++ (RoleToken.ascending name).text ++ ":*") claims h
    let downwards := evaluate ("*:" ++ (RoleToken.descending name).text ++ ":*") claims h
    (upwards = if ∃ q ∈ h.lastEnding? name, name ∈ claims.roles ∨
          ∃ r ∈ h.roles, h.position r < h.position q ∧ r ∈ claims.roles
        then .ok () else .error .notInRoles) ∧
      (downwards = if ∃ q ∈ h.firstEnding? name, name ∈ claims.roles ∨
          ∃ r ∈ h.roles, h.position q < h.position r ∧ r ∈ claims.roles
        then .ok () else .error .notInRoles) ∧
      ((∀ q ∈ h.roles, ¬ q.toList <:+ name.toList) →
        upwards = .error .notInRoles ∧ downwards = .error .notInRoles) ∧
      (name ∈ h.roles →
        ((∀ q ∈ h.roles, q.toList <:+ name.toList → h.position q ≤ h.position name) →
          upwards = if (RoleToken.ascending name).Holds h claims.roles
            then .ok () else .error .notInRoles) ∧
        ((∀ q ∈ h.roles, q.toList <:+ name.toList → h.position name ≤ h.position q) →
          downwards = if (RoleToken.descending name).Holds h claims.roles
            then .ok () else .error .notInRoles)) := by
  intro upwards downwards
  have hup : upwards = _ := evaluate_ascending_eq_ite hh hn claims fun r hr => (hfree r hr).1
  have hdown : downwards = _ := evaluate_descending_eq_ite hh hn claims fun r hr => (hfree r hr).2
  refine ⟨hup, hdown, fun hnone => ⟨?_, ?_⟩, fun hr => ⟨fun hlast => ?_, fun hfirst => ?_⟩⟩
  · have hend : h.lastEnding? name = none :=
      Hierarchy.ending?_eq_none_iff.2 fun r hr => hnone r (List.mem_reverse.1 hr)
    simp [hup, hend]
  · have hend : h.firstEnding? name = none := Hierarchy.ending?_eq_none_iff.2 hnone
    simp [hdown, hend]
  · rw [hup, Hierarchy.lastEnding?_eq_some hh.distinct hr hlast]
    refine if_congr ?_ rfl rfl
    rw [RoleToken.holds_ascending_iff hr]
    simp
  · rw [hdown, Hierarchy.firstEnding?_eq_some hh.distinct hr hfirst]
    refine if_congr ?_ rfl rfl
    rw [RoleToken.holds_descending_iff hr]
    simp

/-- Under `superadmin`, `auditor`, `admin` a `+` behind `superadmin` is read for `admin`, so that
`auditor` is granted, and a `-` behind it for `superadmin` itself. -/
theorem evaluate_superadmin :
    evaluate ("*:" ++ (RoleToken.ascending "superadmin").text ++ ":*")
        ⟨none, ∅, NameSet.ofList ["auditor"], ∅⟩ ⟨["superadmin", "auditor", "admin"]⟩ = .ok () ∧
      evaluate ("*:" ++ (RoleToken.descending "superadmin").text ++ ":*")
        ⟨none, ∅, NameSet.ofList ["admin"], ∅⟩ ⟨["superadmin", "auditor", "admin"]⟩ = .ok () := by
  have hplain : Hierarchy.IsPlain ⟨["superadmin", "auditor", "admin"]⟩ := by decide +kernel
  have hauditor : ∀ r ∈ (NameSet.ofList ["auditor"]).toList,
      '+' ∉ r.toList ∧ '-' ∉ r.toList := by decide +kernel
  have hadmin : ∀ r ∈ (NameSet.ofList ["admin"]).toList,
      '+' ∉ r.toList ∧ '-' ∉ r.toList := by decide +kernel
  have hname : IsPlainName "superadmin" := by decide +kernel
  have hup := (evaluate_marked_name hplain hname
    ⟨none, ∅, NameSet.ofList ["auditor"], ∅⟩ hauditor).1
  have hdown := (evaluate_marked_name hplain hname
    ⟨none, ∅, NameSet.ofList ["admin"], ∅⟩ hadmin).2.1
  exact ⟨hup.trans (if_pos (by decide +kernel)), hdown.trans (if_pos (by decide +kernel))⟩

/-- A tier can hold a role outside it: under `superadmin`, `auditor`, `admin` the role `auditor`,
which is declared after `superadmin`, satisfies `superadmin+`. -/
theorem tier_of_longer_name :
    ¬ ∀ (h : Hierarchy) (name : String) (claims : ClaimSet), h.IsPlain → IsPlainName name →
      (∀ r ∈ claims.roles, ∀ c ∈ ['+', '-', '&', '|'], c ∉ r.toList) →
      evaluate ("*:" ++ (RoleToken.ascending name).text ++ ":*") claims h = .ok () →
      name ∈ h.roles ∧ (RoleToken.ascending name).Holds h claims.roles := by
  intro hall
  have hfree : ∀ r ∈ (NameSet.ofList ["auditor"]).toList,
      ∀ c ∈ ['+', '-', '&', '|'], c ∉ r.toList := by
    intro r hr
    obtain rfl : r = "auditor" := List.mem_singleton.1 (NameSet.mem_ofList.1 hr)
    simp
  have hgranted : evaluate ("*:" ++ (RoleToken.ascending "superadmin").text ++ ":*")
      ⟨none, ∅, NameSet.ofList ["auditor"], ∅⟩ ⟨["superadmin", "auditor", "admin"]⟩ = .ok () := by
    decide +kernel
  have hheld := (hall _ _ _ (by decide +kernel) (by decide +kernel) hfree hgranted).2
  exact absurd hheld (by decide +kernel)

end

end Clearance
