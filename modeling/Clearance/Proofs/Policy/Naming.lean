import Clearance.Proofs.Policy.Evaluation
import Clearance.Proofs.Policy.Expansion
import Clearance.Proofs.Text.Stem
import Mathlib.Data.List.Infix

/-!
# Roles named by a policy

A mark is an ordinary character of role names, so that expansion may find one inside a name: under
`team` the name `team-lead` holds `team-`. `Hierarchy.ReadsMark` says when it does. A replacement
then cuts the name short and nothing later makes it longer again (`length_stem_expand_lt`).
A segment that asks for exactly one name begins with that name (`prefix_of_satisfies_iff`), and
from the two follows when a policy that names a role asks for exactly that role
(`evaluate_name_iff`).
-/

namespace Clearance

namespace Hierarchy

open Text (stem replaceMarked)

/-! ## Replacements in a name -/

/-- The tier of a role begins with the role, and goes on with the delimiter if at all. -/
theorem tier_eq_append {order : List (List Char)} {role : List Char} (hr : role ∈ order) :
    ∃ more, tier order role = role ++ more ∧ (more = [] ∨ more.head? = some '|') := by
  obtain ⟨before, after, rfl, hbefore⟩ := List.eq_append_cons_of_mem hr
  rw [tier, dropWhile_bne_append hbefore]
  cases after with
  | nil => exact ⟨[], by simp, .inl rfl⟩
  | cons q after =>
    exact ⟨'|' :: ['|'].intercalate (q :: after), by simp [List.intercalate_cons_cons], .inr rfl⟩

section
variable {mark : Char} {order : List (List Char)} {s : List Char}

/-- A pass leaves a segment alone in which no role stands before the mark. -/
theorem expandMark_of_absent (habs : ∀ r ∈ order, ¬ r ++ [mark] <:+: s) :
    expandMark mark order s = s := by
  unfold expandMark
  generalize tier order = group
  induction order with
  | nil => rfl
  | cons r order ih =>
    rw [List.foldl_cons, Text.replaceMarked_of_absent (habs r List.mem_cons_self)]
    exact ih fun q hq => habs q (List.mem_cons_of_mem _ hq)

/-- Replacing roles by texts that begin with them does not make the stem longer. -/
theorem length_stem_foldl_le {group : List Char → List Char} (hm : mark ≠ '|')
    (hgroup : ∀ r ∈ order, ∃ more, group r = r ++ more ∧ (more = [] ∨ more.head? = some '|')) :
    (stem '|' (order.foldl (fun s role => replaceMarked role mark (group role) s) s)).length ≤
      (stem '|' s).length := by
  induction order generalizing s with
  | nil => exact Nat.le_refl _
  | cons r order ih =>
    obtain ⟨more, hr, hmore⟩ := hgroup r List.mem_cons_self
    rw [List.foldl_cons, hr]
    exact (ih fun q hq => hgroup q (List.mem_cons_of_mem _ hq)).trans
      (Text.length_stem_replaceMarked_le hm hmore s)

/-- A pass does not make the stem longer. -/
theorem length_stem_expandMark_le (hm : mark ≠ '|') :
    (stem '|' (expandMark mark order s)).length ≤ (stem '|' s).length :=
  length_stem_foldl_le hm fun _ hr => tier_eq_append hr

/-- In a segment of one name a pass that replaces something makes the stem shorter. -/
theorem length_stem_expandMark_lt (hm : mark ≠ '|') (hs : '|' ∉ s)
    (hit : ∃ r ∈ order, r ++ [mark] <:+: s) :
    (stem '|' (expandMark mark order s)).length < (stem '|' s).length := by
  have hgroup : ∀ r ∈ order, ∃ more, tier order r = r ++ more ∧
      (more = [] ∨ more.head? = some '|') := fun _ hr => tier_eq_append hr
  unfold expandMark
  generalize tier order = group at hgroup
  induction order with
  | nil => simp at hit
  | cons r order ih =>
    have hrest : ∀ q ∈ order, ∃ more, group q = q ++ more ∧
        (more = [] ∨ more.head? = some '|') := fun q hq => hgroup q (List.mem_cons_of_mem _ hq)
    rw [List.foldl_cons]
    by_cases hfirst : r ++ [mark] <:+: s
    · obtain ⟨more, hr, hmore⟩ := hgroup r List.mem_cons_self
      rw [hr]
      exact (length_stem_foldl_le hm hrest).trans_lt
        (Text.length_stem_replaceMarked_lt hm hmore hs hfirst)
    · -- The first role is not in the segment, so that a later one is.
      obtain ⟨q, hq, hqs⟩ := hit
      have hlater : q ∈ order := by
        rcases List.mem_cons.1 hq with rfl | hq
        · exact absurd hqs hfirst
        · exact hq
      rw [Text.replaceMarked_of_absent hfirst]
      exact ih ⟨q, hlater, hqs⟩ hrest

end

/-- In the name a declared role stands before a mark. -/
def ReadsMark (h : Hierarchy) (name : String) : Prop :=
  ∃ r ∈ h.roles, r.toList ++ ['+'] <:+: name.toList ∨ r.toList ++ ['-'] <:+: name.toList

instance (h : Hierarchy) (name : String) : Decidable (h.ReadsMark name) :=
  inferInstanceAs (Decidable (∃ r ∈ h.roles, _ ∨ _))

section
variable {h : Hierarchy} {name : String}

/-- Expansion leaves a name alone in which no declared role stands before a mark. -/
theorem expand_of_not_readsMark (hread : ¬ h.ReadsMark name) : h.expand name = name := by
  have hplus : ∀ r ∈ (h.roles.map String.toList).reverse, ¬ r ++ ['+'] <:+: name.toList := by
    intro r hr hin
    obtain ⟨q, hq, rfl⟩ := List.mem_map.1 (List.mem_reverse.1 hr)
    exact hread ⟨q, hq, .inl hin⟩
  have hminus : ∀ r ∈ h.roles.map String.toList, ¬ r ++ ['-'] <:+: name.toList := by
    intro r hr hin
    obtain ⟨q, hq, rfl⟩ := List.mem_map.1 hr
    exact hread ⟨q, hq, .inr hin⟩
  apply String.toList_inj.1
  rw [toList_expand, expandChars, expandMark_of_absent hplus, expandMark_of_absent hminus]

/-- Otherwise it leaves fewer characters before the first delimiter than the name has. -/
theorem length_stem_expand_lt (hname : '|' ∉ name.toList) (hread : h.ReadsMark name) :
    (stem '|' (h.expand name).toList).length < name.toList.length := by
  rw [toList_expand, expandChars]
  by_cases hplus : ∃ r ∈ (h.roles.map String.toList).reverse, r ++ ['+'] <:+: name.toList
  · have hlt := length_stem_expandMark_lt (by decide) hname hplus
    rw [Text.stem_of_notMem hname] at hlt
    exact (length_stem_expandMark_le (by decide)).trans_lt hlt
  · have hnone : ∀ r ∈ (h.roles.map String.toList).reverse, ¬ r ++ ['+'] <:+: name.toList :=
      fun r hr hin => hplus ⟨r, hr, hin⟩
    have hminus : ∃ r ∈ h.roles.map String.toList, r ++ ['-'] <:+: name.toList := by
      obtain ⟨r, hr, hin | hin⟩ := hread
      · exact absurd hin (hnone _ (List.mem_reverse.2 (List.mem_map_of_mem hr)))
      · exact ⟨r.toList, List.mem_map_of_mem hr, hin⟩
    have hlt := length_stem_expandMark_lt (by decide) hname hminus
    rw [Text.stem_of_notMem hname] at hlt
    rw [expandMark_of_absent hnone]
    exact hlt

end

end Hierarchy

/-! ## Segments that ask for one name -/

/-- What a segment asks for. -/
theorem Requirement.ofSegment_cases (segment : String) :
    ofSegment segment = wildcard ∨ ofSegment segment = exact segment ∨
      ofSegment segment = all (Text.split '&' segment) ∨
      ofSegment segment = any (Text.split '|' segment) := by
  unfold ofSegment
  by_cases hw : segment = "" ∨ segment = Clearance.wildcard
  · exact .inl (if_pos hw)
  · rw [if_neg hw]
    by_cases htie : (Text.split '&' segment).length = (Text.split '|' segment).length
    · exact .inr (.inl (if_pos htie))
    · by_cases hlt : (Text.split '|' segment).length < (Text.split '&' segment).length
      · exact .inr (.inr (.inl ((if_neg htie).trans (if_pos hlt))))
      · exact .inr (.inr (.inr ((if_neg htie).trans (if_neg hlt))))

/-- A text begins with its first piece. -/
theorem Text.exists_split_eq_cons (d : Char) (s : String) :
    ∃ first rest, split d s = first :: rest ∧ first.toList <+: s.toList := by
  obtain ⟨first, rest, hsplit⟩ := List.exists_cons_of_ne_nil (split_ne_nil d s)
  refine ⟨first, rest, hsplit, ?_⟩
  have hjoin := congrArg String.toList (join_split d s)
  rw [hsplit, toList_join] at hjoin
  rw [← hjoin]
  cases rest with
  | nil => simp
  | cons second rest => simp [List.intercalate_cons_cons]

/-- A segment that asks for exactly one name begins with it. -/
theorem prefix_of_satisfies_iff {name segment : String}
    (h : ∀ claims, satisfies claims segment = true ↔ name ∈ claims) :
    name.toList <+: segment.toList := by
  unfold satisfies at h
  rcases Requirement.ofSegment_cases segment with hreq | hreq | hreq | hreq
  · rw [hreq] at h
    exact absurd ((h ∅).1 rfl) (NameSet.notMem_empty name)
  · have hmem := (h (NameSet.ofList [segment])).1 (by simp [hreq, Requirement.admits])
    have hsame : name = segment := by simpa using hmem
    exact hsame ▸ List.prefix_rfl
  · obtain ⟨first, rest, hsplit, hfirst⟩ := Text.exists_split_eq_cons '&' segment
    have hall := (h (NameSet.ofList [name])).2 (by simp)
    rw [hreq, hsplit] at hall
    have hsame : first = name := by
      have hmem := Requirement.admits_all_iff.1 hall first List.mem_cons_self
      simpa using hmem
    exact hsame ▸ hfirst
  · obtain ⟨first, rest, hsplit, hfirst⟩ := Text.exists_split_eq_cons '|' segment
    have hmem := (h (NameSet.ofList [first])).1 (by simp [hreq, hsplit, Requirement.admits])
    have hsame : name = first := by simpa using hmem
    exact hsame ▸ hfirst

/-! ## Policies that name a role -/

section
variable {h : Hierarchy} {name : String}

/-- **Naming a role.** A policy that names a role, not the wildcard and without delimiters, grants
exactly the claim sets that hold the role, and refuses the others for their roles, if and only if
no declared role stands in the name with a mark behind it. -/
theorem evaluate_name_iff (hcolon : ':' ∉ name.toList) (hl : IsListable name) (hne : name ≠ "")
    (hw : name ≠ wildcard) :
    (∀ claims, evaluate ("*:" ++ name ++ ":*") claims h =
        if name ∈ claims.roles then .ok () else .error .notInRoles) ↔ ¬ h.ReadsMark name := by
  constructor
  · intro hall hread
    have hasks : ∀ roles, satisfies roles (h.expand name) = true ↔ name ∈ roles := by
      intro roles
      have hone := hall ⟨none, ∅, roles, ∅⟩
      rw [evaluate_roles hcolon, require] at hone
      constructor
      · intro hsat
        by_contra hout
        rw [if_pos hsat, if_neg hout] at hone
        cases hone
      · intro hin
        by_contra hsat
        rw [if_neg hsat, if_pos hin] at hone
        cases hone
    -- Before the first delimiter of the expanded name there is no room for the name itself.
    have hlt := Hierarchy.length_stem_expand_lt hl.2 hread
    obtain ⟨tail, htail⟩ := prefix_of_satisfies_iff hasks
    rw [← htail, Text.stem_append_of_notMem hl.2, List.length_append] at hlt
    omega
  · intro hread claims
    rw [evaluate_roles hcolon, Hierarchy.expand_of_not_readsMark hread, require]
    exact if_congr (satisfies_name hl hne hw claims.roles) rfl rfl

/-- With `lead` declared beside it the name `team-lead` asks for that role and no other. -/
theorem evaluate_team_lead :
    evaluate ("*:" ++ "team-lead" ++ ":*") ⟨none, ∅, NameSet.ofList ["team-lead"], ∅⟩
        ⟨["lead", "team-lead"]⟩ = .ok () ∧
      evaluate ("*:" ++ "team-lead" ++ ":*") ⟨none, ∅, NameSet.ofList ["lead"], ∅⟩
        ⟨["lead", "team-lead"]⟩ = .error .notInRoles := by
  have hunread : ¬ Hierarchy.ReadsMark ⟨["lead", "team-lead"]⟩ "team-lead" := by decide +kernel
  have hasks := (evaluate_name_iff (by decide) (by decide) (by decide) (by decide)).2 hunread
  exact ⟨(hasks _).trans (if_pos (by decide +kernel)), (hasks _).trans (if_neg (by decide +kernel))⟩

/-- A name can ask for another role: if `team` is declared beside `team-lead`, the name `team-lead`
expands to `team|team-leadlead`, which grants `team` and refuses `team-lead`. -/
theorem name_read_as_tier :
    ¬ ∀ (h : Hierarchy) (name : String) (claims : ClaimSet), name ∈ h.roles → name ≠ "" →
      name ≠ wildcard → (∀ c ∈ [':', '&', '|'], c ∉ name.toList) →
      (∀ c ∈ ['+', '-'], name.toList.getLast? ≠ some c) →
      evaluate ("*:" ++ name ++ ":*") claims h =
        if name ∈ claims.roles then .ok () else .error .notInRoles := by
  intro hall
  have hteam := hall ⟨["team", "team-lead"]⟩ "team-lead" ⟨none, ∅, NameSet.ofList ["team"], ∅⟩
    (by decide) (by decide) (by decide) (by simp) (by simp)
  exact absurd hteam (by decide +kernel)

end

end Clearance
