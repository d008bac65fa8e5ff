import Clearance.Proofs.Policy.Naming
import Clearance.Proofs.Policy.Verdict
import Mathlib.Data.List.Infix

/-!
# Wildcards

Two segments are satisfied by every claim set, the empty one and `*` (`IsWildcard`), and they are
the only ones that are satisfied by a claim set without members (`satisfies_empty_iff`). Expansion
writes into a role segment, and what it changes holds a role name afterwards
(`Hierarchy.exists_role_of_expand_ne`). So it makes no wildcard of another segment as long as no
role is named by one (`Hierarchy.isWildcard_expand_iff`), and a policy is granted to nobody without
claims unless it asks for nothing (`evaluate_without_claims_iff`).
-/

namespace Clearance

/-! ## What an expansion has changed -/

/-- A replacement leaves a text alone, or the inserted text stands in the result. -/
theorem Text.replaceMarked_eq_or_isInfix (word : List Char) (mark : Char) (inserted s : List Char) :
    replaceMarked word mark inserted s = s ∨ inserted <:+: replaceMarked word mark inserted s := by
  induction s with
  | nil => exact .inl rfl
  | cons c rest ih =>
    rw [replaceMarked_cons]
    by_cases hit : word ++ [mark] <+: c :: rest
    · rw [if_pos hit]
      exact .inr (List.prefix_append _ _).isInfix
    · rw [if_neg hit]
      rcases ih with hsame | hin
      · exact .inl (congrArg (c :: ·) hsame)
      · exact .inr (List.infix_cons hin)

namespace Hierarchy

section
variable {mark : Char} {order : List (List Char)} {s : List Char}

/-- Replacing roles by texts that hold them leaves a segment alone, or a role stands in the
result. -/
theorem foldl_replaceMarked_eq_self {group : List Char → List Char}
    (hgroup : ∀ r ∈ order, r <:+: group r)
    (habs : ∀ r ∈ order,
      ¬ r <:+: order.foldl (fun s role => Text.replaceMarked role mark (group role) s) s) :
    order.foldl (fun s role => Text.replaceMarked role mark (group role) s) s = s := by
  induction order generalizing s with
  | nil => rfl
  | cons r order ih =>
    have hrest := ih (fun q hq => hgroup q (List.mem_cons_of_mem _ hq))
      (fun q hq => habs q (List.mem_cons_of_mem _ hq))
    have hr := habs r List.mem_cons_self
    rw [List.foldl_cons, hrest] at hr ⊢
    rcases Text.replaceMarked_eq_or_isInfix r mark (group r) s with hsame | hin
    · exact hsame
    · exact absurd ((hgroup r List.mem_cons_self).trans hin) hr

/-- A pass whose result holds no role has replaced nothing. -/
theorem expandMark_eq_self (habs : ∀ r ∈ order, ¬ r <:+: expandMark mark order s) :
    expandMark mark order s = s := by
  refine foldl_replaceMarked_eq_self (fun r hr => ?_) habs
  obtain ⟨more, htier, -⟩ := tier_eq_append hr
  exact htier ▸ (List.prefix_append r more).isInfix

end

section
variable {h : Hierarchy} {segment : String}

/-- What expansion has changed holds a role name. -/
theorem exists_role_of_expand_ne (hne : h.expand segment ≠ segment) :
    ∃ r ∈ h.roles, r.toList <:+: (h.expand segment).toList := by
  by_contra! habs
  rw [toList_expand] at habs
  have hminus : ∀ r ∈ h.roles.map String.toList,
      ¬ r <:+: expandChars (h.roles.map String.toList) segment.toList := by
    intro r hr
    obtain ⟨q, hq, rfl⟩ := List.mem_map.1 hr
    exact habs q hq
  have hlast : expandChars (h.roles.map String.toList) segment.toList =
      expandMark '+' (h.roles.map String.toList).reverse segment.toList :=
    expandMark_eq_self hminus
  have hfirst : expandMark '+' (h.roles.map String.toList).reverse segment.toList =
      segment.toList := by
    refine expandMark_eq_self fun r hr => ?_
    rw [← hlast]
    exact hminus r (List.mem_reverse.1 hr)
  exact hne (String.toList_inj.1 ((toList_expand h segment).trans (hlast.trans hfirst)))

end

end Hierarchy

/-! ## Wildcards -/

/-- The segment asks for nothing. -/
def IsWildcard (segment : String) : Prop := segment = "" ∨ segment = wildcard

instance (segment : String) : Decidable (IsWildcard segment) :=
  inferInstanceAs (Decidable (_ ∨ _))

/-- A segment asks for nothing if it has no other character than one `*`. -/
theorem isWildcard_iff_isInfix {segment : String} :
    IsWildcard segment ↔ segment.toList <:+: ['*'] := by
  rw [List.infix_singleton_iff, String.toList_eq_nil_iff, IsWildcard]
  exact or_congr_right ⟨fun e => e ▸ rfl, fun e => String.toList_inj.1 e⟩

namespace Requirement

/-- The wildcards are read as such, and no other segment is. -/
theorem ofSegment_eq_wildcard_iff {segment : String} :
    ofSegment segment = wildcard ↔ IsWildcard segment := by
  unfold ofSegment IsWildcard
  by_cases hw : segment = "" ∨ segment = Clearance.wildcard
  · rw [if_pos hw]
    exact iff_of_true rfl hw
  · rw [if_neg hw]
    refine iff_of_false ?_ hw
    dsimp only
    split
    · exact nofun
    · split <;> exact nofun

/-- Nothing is all that a claim set without members meets. -/
theorem admits_empty_iff {segment : String} :
    (ofSegment segment).admits ∅ = true ↔ ofSegment segment = wildcard := by
  constructor
  · intro hadmits
    rcases ofSegment_cases segment with hreq | hreq | hreq | hreq
    · exact hreq
    · rw [hreq, admits_exact_iff] at hadmits
      exact absurd hadmits (NameSet.notMem_empty segment)
    · -- An AND list has a first token, which the set would have to hold.
      obtain ⟨first, rest, hsplit⟩ := List.exists_cons_of_ne_nil (Text.split_ne_nil '&' segment)
      rw [hreq, hsplit, admits_all_iff] at hadmits
      exact absurd (hadmits first List.mem_cons_self) (NameSet.notMem_empty first)
    · rw [hreq, admits_any_iff] at hadmits
      obtain ⟨token, -, hmem⟩ := hadmits
      exact absurd hmem (NameSet.notMem_empty token)
  · intro hreq
    rw [hreq]
    rfl

end Requirement

/-- A claim set without members satisfies the wildcards and no other segment. -/
theorem satisfies_empty_iff {segment : String} :
    satisfies ∅ segment = true ↔ IsWildcard segment :=
  Requirement.admits_empty_iff.trans Requirement.ofSegment_eq_wildcard_iff

section
variable {h : Hierarchy}

/-- A wildcard holds no mark and is left alone, whatever the hierarchy. -/
theorem Hierarchy.expand_of_isWildcard {segment : String} (hw : IsWildcard segment) :
    h.expand segment = segment := by
  refine expand_of_not_readsMark ?_
  rintro ⟨r, -, hin | hin⟩
  · have hmark := (hin.trans (isWildcard_iff_isInfix.1 hw)).subset (a := '+') (by simp)
    exact absurd hmark (by decide)
  · have hmark := (hin.trans (isWildcard_iff_isInfix.1 hw)).subset (a := '-') (by simp)
    exact absurd hmark (by decide)

/-- As long as no role is named by a wildcard, expansion makes wildcards of wildcards only. -/
theorem Hierarchy.isWildcard_expand_iff (hempty : "" ∉ h.roles) (hstar : wildcard ∉ h.roles)
    {segment : String} : IsWildcard (h.expand segment) ↔ IsWildcard segment := by
  have hsame : IsWildcard (h.expand segment) ∨ IsWildcard segment → h.expand segment = segment := by
    rintro (hw | hw)
    · by_contra hne
      obtain ⟨r, hr, hin⟩ := exists_role_of_expand_ne hne
      -- The role would stand in a wildcard and so be one.
      rcases isWildcard_iff_isInfix.2 (hin.trans (isWildcard_iff_isInfix.1 hw)) with rfl | rfl
      · exact hempty hr
      · exact hstar hr
    · exact expand_of_isWildcard hw
  constructor
  · intro hw
    exact hsame (.inl hw) ▸ hw
  · intro hw
    exact (hsame (.inr hw)).symm ▸ hw

-- Neither condition can go: a role that a wildcard names is written for its own tier.
example : Hierarchy.expand ⟨["*"]⟩ "*+" = wildcard ∧ Hierarchy.expand ⟨[""]⟩ "+" = "" := by
  decide +kernel

/-- **Closed without claims.** Unless the hierarchy declares a wildcard as a role, a policy is
granted to three sets without members exactly if each of its segments is a wildcard: expansion makes
a wildcard of no other segment, and no other role segment is satisfied through it by a set without
members. -/
theorem evaluate_without_claims_iff (hempty : "" ∉ h.roles) (hstar : wildcard ∉ h.roles)
    (policy : String) (who : Option String) :
    (evaluate policy ⟨who, ∅, ∅, ∅⟩ h = .ok () ↔
        ∀ segment ∈ (Condition.parse policy).segments, IsWildcard segment) ∧
      ∀ segment, (IsWildcard (h.expand segment) ↔ IsWildcard segment) ∧
        (satisfies ∅ (h.expand segment) = true ↔ IsWildcard segment) := by
  have hexpand : ∀ segment, IsWildcard (h.expand segment) ↔ IsWildcard segment :=
    fun _ => Hierarchy.isWildcard_expand_iff hempty hstar
  have hroles : ∀ segment, satisfies ∅ (h.expand segment) = true ↔ IsWildcard segment :=
    fun segment => satisfies_empty_iff.trans (hexpand segment)
  refine ⟨?_, fun segment => ⟨hexpand segment, hroles segment⟩⟩
  rw [evaluate, Condition.evaluate_eq_ok_iff, Violation.forall_iff]
  simp only [Condition.meets, satisfies_empty_iff, hexpand, Condition.segments, List.mem_cons,
    List.not_mem_nil, or_false, forall_eq_or_imp, forall_eq]

/-- A role may end with a mark or begin with `*`, and still `**+` asks for a role after it is
expanded, where the text `:*` asks for nothing. -/
theorem nobody_among_starred_roles :
    evaluate ":*" ⟨none, ∅, ∅, ∅⟩ ⟨["*+", "**"]⟩ = .ok () ∧
      ¬ evaluate "*:**+" ⟨none, ∅, ∅, ∅⟩ ⟨["*+", "**"]⟩ = .ok () := by
  have hempty : "" ∉ ["*+", "**"] := by decide
  have hstar : wildcard ∉ ["*+", "**"] := by decide
  constructor
  · exact (evaluate_without_claims_iff hempty hstar ":*" none).1.2 (by decide +kernel)
  · exact mt (evaluate_without_claims_iff hempty hstar "*:**+" none).1.1 (by decide +kernel)

end

end Clearance
