import Clearance.Proofs.Policy.Evaluation
import Clearance.Proofs.Policy.Expansion
import Mathlib.Data.List.Basic

/-!
# Role tiers

A role list is written in tokens: a plain name, `R+` for the role `R` and those declared before it,
or `R-` for `R` and those declared after it. `RoleToken.Holds` says what a token asks of the roles
of a claim set in terms of declared positions. In a hierarchy whose names cannot be confused
(`Hierarchy.Unambiguous`) expansion turns each token into the list of its names
(`expand_join_tokens`). From there `evaluate_alternatives` decides OR lists: a policy
`*:t₁|…|tₙ:*` is granted exactly when some token holds.
-/

namespace Clearance

/-- A name without marks and delimiters, and not empty. -/
def IsPlainName (name : String) : Prop :=
  name ≠ "" ∧ ∀ c ∈ ['+', '-', '&', '|', ':'], c ∉ name.toList

-- The marks are listed, so that they are tried and not all characters.
instance (name : String) : Decidable (IsPlainName name) :=
  @instDecidableAnd _ _ _ (List.decidableBAll _ _)

theorem IsPlainName.isListable {name : String} (hn : IsPlainName name) : IsListable name :=
  ⟨hn.2 '&' (by simp), hn.2 '|' (by simp)⟩

namespace Hierarchy

/-- The role names are distinct and plain, none is the wildcard and none is a suffix of another. -/
structure Unambiguous (h : Hierarchy) : Prop where
  distinct : h.roles.Nodup
  plain : ∀ r ∈ h.roles, IsPlainName r ∧ r ≠ wildcard
  suffix : ∀ r ∈ h.roles, ∀ q ∈ h.roles, q.toList <:+ r.toList → q = r

instance (h : Hierarchy) : Decidable h.Unambiguous :=
  decidable_of_iff (h.roles.Nodup ∧ (∀ r ∈ h.roles, IsPlainName r ∧ r ≠ wildcard) ∧
      ∀ r ∈ h.roles, ∀ q ∈ h.roles, q.toList <:+ r.toList → q = r)
    ⟨fun ⟨h₁, h₂, h₃⟩ => ⟨h₁, h₂, h₃⟩, fun ⟨h₁, h₂, h₃⟩ => ⟨h₁, h₂, h₃⟩⟩

/-- The position at which a role is declared, counted from zero. -/
def position (h : Hierarchy) (role : String) : Nat := h.roles.idxOf role

end Hierarchy

/-- A token of a role list. -/
inductive RoleToken where
  /-- The role of the name, declared or not. -/
  | plain (name : String)
  /-- `R+`: the role or one declared before it. -/
  | ascending (role : String)
  /-- `R-`: the role or one declared after it. -/
  | descending (role : String)
  deriving DecidableEq

namespace RoleToken

/-- The token as it is written. -/
def text : RoleToken → String
  | plain name => name
  | ascending role => role ++ "+"
  | descending role => role ++ "-"

/-- A plain name is plain indeed, and a marked role is declared. -/
def IsWellFormed (h : Hierarchy) : RoleToken → Prop
  | plain name => IsPlainName name
  | ascending role => role ∈ h.roles
  | descending role => role ∈ h.roles

instance (h : Hierarchy) : (t : RoleToken) → Decidable (t.IsWellFormed h)
  | plain name => inferInstanceAs (Decidable (IsPlainName name))
  | ascending role => inferInstanceAs (Decidable (role ∈ h.roles))
  | descending role => inferInstanceAs (Decidable (role ∈ h.roles))

/-- The roles of a claim set satisfy the token: they hold the plain name, or a declared role at or
before, or at or after, the position of the marked one. -/
def Holds (h : Hierarchy) (roles : NameSet) : RoleToken → Prop
  | plain name => name ∈ roles
  | ascending role => ∃ q ∈ h.roles, h.position q ≤ h.position role ∧ q ∈ roles
  | descending role => ∃ q ∈ h.roles, h.position role ≤ h.position q ∧ q ∈ roles

instance (h : Hierarchy) (roles : NameSet) : (t : RoleToken) → Decidable (t.Holds h roles)
  | plain name => inferInstanceAs (Decidable (name ∈ roles))
  | ascending _ => inferInstanceAs (Decidable (∃ q ∈ h.roles, _ ∧ _))
  | descending _ => inferInstanceAs (Decidable (∃ q ∈ h.roles, _ ∧ _))

/-- The names that the token stands for, in the order in which expansion writes them: the marked
role, and then the others from the nearest to the farthest. -/
def names (h : Hierarchy) : RoleToken → List String
  | plain name => [name]
  | ascending role => (h.roles.take (h.position role + 1)).reverse
  | descending role => h.roles.drop (h.position role)

end RoleToken

/-! ## The names of a token -/

section
variable {h : Hierarchy}

/-- A declared role parts the declared order into the roles before it and the roles after it. -/
theorem Hierarchy.exists_around {role : String} (hd : h.roles.Nodup) (hr : role ∈ h.roles) :
    ∃ before after, h.roles = before ++ role :: after ∧ role ∉ before ∧ role ∉ after ∧
      h.position role = before.length := by
  obtain ⟨before, after, hroles, hbefore⟩ := List.eq_append_cons_of_mem hr
  rw [hroles] at hd
  have hafter : role ∉ after := (List.nodup_cons.1 (List.nodup_append.1 hd).2.1).1
  refine ⟨before, after, hroles, hbefore, hafter, ?_⟩
  rw [position, hroles, List.idxOf_append, if_neg hbefore, List.idxOf_cons_self, Nat.zero_add]

/-- The tier of a role in an order of names is written from that role on. -/
theorem Hierarchy.tier_map_toList (order : List String) (role : String) :
    tier (order.map String.toList) role.toList =
      (Text.join '|' (order.dropWhile (· != role))).toList := by
  have hsame : ((· != role.toList) ∘ String.toList) = (· != role) := by
    funext q
    simp [bne, String.toList_inj]
  rw [tier, List.dropWhile_map, hsame, Text.toList_join]

/-- Going backwards from a role one meets the names of `R+`. -/
theorem RoleToken.dropWhile_reverse {role : String} (hd : h.roles.Nodup) (hr : role ∈ h.roles) :
    h.roles.reverse.dropWhile (· != role) = (ascending role).names h := by
  obtain ⟨before, after, hroles, -, hafter, hpos⟩ := Hierarchy.exists_around hd hr
  have hskip : role ∉ after.reverse := fun hmem => hafter (List.mem_reverse.1 hmem)
  have htake : (before ++ role :: after).take (before.length + 1) = before ++ [role] := by
    rw [List.take_length_add_append]
    rfl
  rw [names, hpos, hroles, htake, List.reverse_append, List.reverse_cons, List.append_assoc,
    List.singleton_append, Hierarchy.dropWhile_bne_append hskip]
  simp

/-- Going forwards from a role one meets the names of `R-`. -/
theorem RoleToken.dropWhile_roles {role : String} (hd : h.roles.Nodup) (hr : role ∈ h.roles) :
    h.roles.dropWhile (· != role) = (descending role).names h := by
  obtain ⟨before, after, hroles, hbefore, -, hpos⟩ := Hierarchy.exists_around hd hr
  rw [names, hpos, hroles, Hierarchy.dropWhile_bne_append hbefore, List.drop_left]

/-- A declared role stands from a position on exactly if it is declared there or later. -/
theorem Hierarchy.mem_drop_iff {q : String} {n : Nat} (hd : h.roles.Nodup) (hq : q ∈ h.roles) :
    q ∈ h.roles.drop n ↔ n ≤ h.position q := by
  have htake : q ∈ h.roles.take n ↔ h.position q < n := List.mem_take_iff_idxOf_lt hq
  rw [← List.take_append_drop n h.roles] at hq hd
  have hdisjoint := (List.nodup_append.1 hd).2.2
  constructor
  · intro hdrop
    by_contra hlt
    exact hdisjoint q (htake.2 (Nat.lt_of_not_le hlt)) q hdrop rfl
  · intro hle
    rcases List.mem_append.1 hq with hq | hq
    · exact absurd (htake.1 hq) (Nat.not_lt.2 hle)
    · exact hq

/-- A token holds exactly if the claim set has one of its names. -/
theorem RoleToken.holds_iff {t : RoleToken} {roles : NameSet} (hd : h.roles.Nodup) :
    t.Holds h roles ↔ ∃ q ∈ t.names h, q ∈ roles := by
  cases t with
  | plain name => simp [Holds, names]
  | ascending role =>
    constructor
    · rintro ⟨q, hq, hle, hmem⟩
      exact ⟨q, List.mem_reverse.2 ((List.mem_take_iff_idxOf_lt hq).2 (Nat.lt_succ_of_le hle)),
        hmem⟩
    · rintro ⟨q, hq, hmem⟩
      have htake := List.mem_reverse.1 hq
      have hroles := List.mem_of_mem_take htake
      exact ⟨q, hroles, Nat.le_of_lt_succ ((List.mem_take_iff_idxOf_lt hroles).1 htake), hmem⟩
  | descending role =>
    constructor
    · rintro ⟨q, hq, hle, hmem⟩
      exact ⟨q, (Hierarchy.mem_drop_iff hd hq).2 hle, hmem⟩
    · rintro ⟨q, hq, hmem⟩
      have hroles := List.mem_of_mem_drop hq
      exact ⟨q, hroles, (Hierarchy.mem_drop_iff hd hroles).1 hq, hmem⟩

/-- The names of a marked role are declared. -/
theorem RoleToken.mem_roles_of_mem_names {t : RoleToken} {q : String} (hq : q ∈ t.names h) :
    t = .plain q ∨ q ∈ h.roles := by
  cases t with
  | plain name => exact .inl (by rw [List.mem_singleton.1 hq])
  | ascending role => exact .inr (List.mem_of_mem_take (List.mem_reverse.1 hq))
  | descending role => exact .inr (List.mem_of_mem_drop hq)

/-- The names of a well-formed token are plain. -/
theorem RoleToken.isPlainName_of_mem_names {t : RoleToken} {q : String} (hh : h.Unambiguous)
    (ht : t.IsWellFormed h) (hq : q ∈ t.names h) : IsPlainName q := by
  rcases mem_roles_of_mem_names hq with rfl | hr
  · exact ht
  · exact (hh.plain q hr).1

/-- A well-formed token has a name. -/
theorem RoleToken.names_ne_nil {t : RoleToken} (ht : t.IsWellFormed h) : t.names h ≠ [] := by
  cases t with
  | plain name => simp [names]
  | ascending role =>
    have hpos := List.length_pos_of_mem (show role ∈ h.roles from ht)
    rw [names, Ne, List.reverse_eq_nil_iff, List.take_eq_nil_iff]
    rintro (h | h)
    · exact absurd h (Nat.succ_ne_zero _)
    · simp [h] at hpos
  | descending role =>
    rw [names, Ne, List.drop_eq_nil_iff, Nat.not_le]
    exact List.idxOf_lt_length_of_mem ht

theorem RoleToken.map_names_ne_nil {tokens : List RoleToken}
    (hwf : ∀ t ∈ tokens, t.IsWellFormed h) : ∀ g ∈ tokens.map (RoleToken.names h), g ≠ [] := by
  intro g hg
  obtain ⟨t, ht, rfl⟩ := List.mem_map.1 hg
  exact names_ne_nil (hwf t ht)

/-! ## Expansion -/

/-- In an unambiguous hierarchy a declared role ends with no declared role but itself. -/
theorem Hierarchy.rewritten_role {mark : Char} {order : List String} {role : String}
    (hs : ∀ q ∈ order, q.toList <:+ role.toList → q = role) (hr : role ∈ order) :
    rewritten mark (order.map String.toList) role.toList =
      (Text.join '|' (order.dropWhile (· != role))).toList := by
  have hfind : (order.map String.toList).find? (· <:+ role.toList) = some role.toList := by
    cases hf : (order.map String.toList).find? (· <:+ role.toList) with
    | none =>
      have hnone := List.find?_eq_none.1 hf role.toList (List.mem_map_of_mem hr)
      simp at hnone
    | some q =>
      obtain ⟨q, hq, rfl⟩ := List.mem_map.1 (List.mem_of_find?_eq_some hf)
      have hsuf : q.toList <:+ role.toList := by simpa using List.find?_some hf
      rw [hs q hq hsuf]
  rw [rewritten, hfind]
  simp only [Nat.sub_self, List.take_zero, List.nil_append]
  exact tier_map_toList order role

/-- Expansion turns a token into the list of its names. -/
theorem RoleToken.expandChars_text {t : RoleToken} (hh : h.Unambiguous)
    (ht : t.IsWellFormed h) :
    Hierarchy.expandChars (h.roles.map String.toList) t.text.toList =
      (Text.join '|' (t.names h)).toList := by
  have hfree : ∀ c ∈ ['+', '-', '&', '|', ':'], ∀ r ∈ h.roles.map String.toList, c ∉ r := by
    intro c hc r hr
    obtain ⟨q, hq, rfl⟩ := List.mem_map.1 hr
    exact (hh.plain q hq).1.2 c hc
  have hplus := hfree '+' (by simp)
  have hminus := hfree '-' (by simp)
  cases t with
  | plain name =>
    have hn : IsPlainName name := ht
    rw [text, Hierarchy.expandChars_of_notMem (hn.2 '+' (by simp)) (hn.2 '-' (by simp))]
    simp [names, Text.join]
  | ascending role =>
    have hr : role ∈ h.roles := ht
    have hrole := List.mem_map_of_mem (f := String.toList) hr
    have hsuf : ∀ q ∈ h.roles.reverse, q.toList <:+ role.toList → q = role :=
      fun q hq => hh.suffix role hr q (List.mem_reverse.1 hq)
    rw [text, String.toList_append]
    refine (Hierarchy.expandChars_concat_plus (hplus _ hrole) (hminus _ hrole) hplus
      hminus).trans ?_
    rw [← List.map_reverse, Hierarchy.rewritten_role hsuf (List.mem_reverse.2 hr),
      dropWhile_reverse hh.distinct hr]
  | descending role =>
    have hr : role ∈ h.roles := ht
    have hrole := List.mem_map_of_mem (f := String.toList) hr
    rw [text, String.toList_append]
    refine (Hierarchy.expandChars_concat_minus (hplus _ hrole) (hminus _ hrole) hminus).trans ?_
    rw [Hierarchy.rewritten_role (hh.suffix role hr) hr, dropWhile_roles hh.distinct hr]

/-- **Expansion of a role list.** Tokens joined by a list delimiter expand to the lists of their
names, joined by the same delimiter. -/
theorem expand_join_tokens {d : Char} {tokens : List RoleToken} (hd : d = '&' ∨ d = '|')
    (hh : h.Unambiguous) (hwf : ∀ t ∈ tokens, t.IsWellFormed h) :
    h.expand (Text.join d (tokens.map RoleToken.text)) =
      Text.join d ((tokens.map (RoleToken.names h)).map (Text.join '|')) := by
  have hmem : d ∈ ['+', '-', '&', '|', ':'] := by rcases hd with rfl | rfl <;> simp
  have hfree : ∀ r ∈ h.roles.map String.toList, d ∉ r := by
    intro r hr
    obtain ⟨q, hq, rfl⟩ := List.mem_map.1 hr
    exact (hh.plain q hq).1.2 d hmem
  have hplus : d ≠ '+' := by rcases hd with rfl | rfl <;> decide
  have hminus : d ≠ '-' := by rcases hd with rfl | rfl <;> decide
  apply String.toList_inj.1
  rw [Hierarchy.toList_expand, Text.toList_join, Text.toList_join,
    Hierarchy.expandChars_intercalate hfree hplus hminus, List.map_map, List.map_map, List.map_map,
    List.map_map]
  congr 1
  exact List.map_congr_left fun t ht => RoleToken.expandChars_text hh (hwf t ht)

/-- A token is written without colons. -/
theorem RoleToken.colon_notMem_text {t : RoleToken} (hh : h.Unambiguous)
    (ht : t.IsWellFormed h) : ':' ∉ t.text.toList := by
  cases t with
  | plain name => exact (show IsPlainName name from ht).2 ':' (by simp)
  | ascending role =>
    have := (hh.plain role ht).1.2 ':' (by simp)
    simpa [text] using this
  | descending role =>
    have := (hh.plain role ht).1.2 ':' (by simp)
    simpa [text] using this

/-- A policy that asks for a role list only depends on the list of the names. -/
theorem evaluate_join_tokens {d : Char} {tokens : List RoleToken} (hd : d = '&' ∨ d = '|')
    (hh : h.Unambiguous) (hwf : ∀ t ∈ tokens, t.IsWellFormed h) (claims : ClaimSet) :
    evaluate ("*:" ++ Text.join d (tokens.map RoleToken.text) ++ ":*") claims h =
      require claims.roles (Text.join d ((tokens.map (RoleToken.names h)).map (Text.join '|')))
        .notInRoles := by
  have hcolon : ':' ∉ (Text.join d (tokens.map RoleToken.text)).toList := by
    have hne : ':' ≠ d := by
      rcases hd with rfl | rfl
      · decide
      · decide
    refine Text.notMem_join hne fun text htext => ?_
    obtain ⟨t, ht, rfl⟩ := List.mem_map.1 htext
    exact RoleToken.colon_notMem_text hh (hwf t ht)
  rw [evaluate_roles hcolon, expand_join_tokens hd hh hwf]

/-! ## OR lists -/

/-- **Tiers mean positions.** In an unambiguous hierarchy an OR list of well-formed tokens, none of
them the wildcard, is granted exactly when a token holds for the roles of the claim set; otherwise
the roles are the violation. -/
theorem evaluate_alternatives (hh : h.Unambiguous) {tokens : List RoleToken} (hne : tokens ≠ [])
    (hwf : ∀ t ∈ tokens, t.IsWellFormed h ∧ t ≠ .plain wildcard) (claims : ClaimSet) :
    evaluate ("*:" ++ Text.join '|' (tokens.map RoleToken.text) ++ ":*") claims h =
      if ∃ t ∈ tokens, t.Holds h claims.roles then .ok () else .error .notInRoles := by
  have hwf' : ∀ t ∈ tokens, t.IsWellFormed h := fun t ht => (hwf t ht).1
  have hgroups := RoleToken.map_names_ne_nil hwf'
  have hname : ∀ n ∈ (tokens.map (RoleToken.names h)).flatten, IsPlainName n ∧ n ≠ wildcard := by
    intro n hn
    obtain ⟨g, hg, hng⟩ := List.mem_flatten.1 hn
    obtain ⟨t, ht, rfl⟩ := List.mem_map.1 hg
    refine ⟨RoleToken.isPlainName_of_mem_names hh (hwf' t ht) hng, ?_⟩
    rcases RoleToken.mem_roles_of_mem_names hng with rfl | hr
    · exact fun e => (hwf _ ht).2 (congrArg RoleToken.plain e)
    · exact (hh.plain n hr).2
  have hflat : (tokens.map (RoleToken.names h)).flatten ≠ [] := by
    obtain ⟨t, rest, rfl⟩ := List.exists_cons_of_ne_nil hne
    have := RoleToken.names_ne_nil (hwf' t List.mem_cons_self)
    simp [this]
  rw [evaluate_join_tokens (.inr rfl) hh hwf', ← Text.join_flatten hgroups, require,
    satisfies_join (fun n hn => (hname n hn).1.isListable) hflat]
  · have hany : ((tokens.map (RoleToken.names h)).flatten.any (· ∈ claims.roles)) = true ↔
        ∃ t ∈ tokens, t.Holds h claims.roles := by
      simp [RoleToken.holds_iff hh.distinct, List.any_eq_true]
    simp only [hany]
  · intro n hn
    have hmem := hname n (by simp [hn])
    exact ⟨hmem.1.1, hmem.2⟩

/-- The role `member` comes before `lead` and so satisfies `lead+|admin-|auditor`. -/
theorem evaluate_lead_or_admin_or_auditor :
    evaluate ("*:" ++ Text.join '|'
        ([.ascending "lead", .descending "admin", .plain "auditor"].map RoleToken.text) ++ ":*")
      ⟨none, ∅, NameSet.ofList ["member"], ∅⟩ ⟨["member", "lead", "admin"]⟩ = .ok () :=
  (evaluate_alternatives (by decide +kernel) (by simp) (by decide +kernel)
    ⟨none, ∅, NameSet.ofList ["member"], ∅⟩).trans (if_pos (by decide +kernel))

end

end Clearance
