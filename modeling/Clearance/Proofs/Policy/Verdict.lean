import Clearance.Policy.Evaluate
import Mathlib.Data.List.Basic

/-!
# Verdicts

Each dimension of a condition is met or missed by the claim sets (`Condition.meets`), and the
verdict says no more than that: a condition is granted if every dimension is met
(`Condition.evaluate_eq_ok_iff`), and refused for the first one that is missed
(`Condition.evaluate_eq_error_iff`). Larger claim sets meet at least the same dimensions, whatever
the shape of the segments (`Condition.meets_mono`), so that more claims never lose access
(`evaluate_mono`).
-/

namespace Clearance

/-! ## Dimensions -/

/-- The place of the dimension in the order of the checks. -/
def Violation.place : Violation → Nat
  | notInDepartments => 0
  | notInRoles => 1
  | notInScopes => 2

/-- A statement about every dimension, dimension by dimension. -/
theorem Violation.forall_iff {p : Violation → Prop} :
    (∀ v, p v) ↔ p .notInDepartments ∧ p .notInRoles ∧ p .notInScopes := by
  constructor
  · intro h
    exact ⟨h _, h _, h _⟩
  · rintro ⟨hd, hr, hs⟩ v
    cases v with
    | notInDepartments => exact hd
    | notInRoles => exact hr
    | notInScopes => exact hs

namespace Condition

/-- The claim sets satisfy the segment of the dimension; for roles, after the tiers are
expanded. -/
def meets (c : Condition) (claims : ClaimSet) (h : Hierarchy) : Violation → Bool
  | .notInDepartments => satisfies claims.departments c.departments
  | .notInRoles => satisfies claims.roles (h.expand c.roles)
  | .notInScopes => satisfies claims.scopes c.scopes

section
variable {c : Condition} {claims : ClaimSet} {h : Hierarchy}

/-- The dimensions are checked in their order. -/
theorem evaluate_eq_ite :
    c.evaluate claims h =
      if c.meets claims h .notInDepartments then
        if c.meets claims h .notInRoles then
          if c.meets claims h .notInScopes then .ok () else .error .notInScopes
        else .error .notInRoles
      else .error .notInDepartments := by
  unfold evaluate require
  simp only [meets]
  by_cases hd : satisfies claims.departments c.departments = true
  · by_cases hr : satisfies claims.roles (h.expand c.roles) = true
    · by_cases hs : satisfies claims.scopes c.scopes = true
      · simp only [hd, hr, hs, if_true]
        rfl
      · simp only [hd, hr, hs, if_true]
        rfl
    · simp only [hd, hr, if_true]
      rfl
  · simp only [hd]
    rfl

/-- The verdict depends on which dimensions are met, and on nothing else. -/
theorem evaluate_congr {d : Condition} {claims' : ClaimSet} {h' : Hierarchy}
    (hsame : ∀ v, c.meets claims h v = d.meets claims' h' v) :
    c.evaluate claims h = d.evaluate claims' h' := by
  simp only [evaluate_eq_ite, hsame]

/-- A condition is granted if every dimension is met. -/
theorem evaluate_eq_ok_iff : c.evaluate claims h = .ok () ↔ ∀ v, c.meets claims h v = true := by
  rw [evaluate_eq_ite, Violation.forall_iff]
  grind

/-- A condition is refused for a dimension that is missed while the earlier ones are met. -/
theorem evaluate_eq_error_iff {v : Violation} :
    c.evaluate claims h = .error v ↔
      c.meets claims h v = false ∧ ∀ w, w.place < v.place → c.meets claims h w = true := by
  rw [evaluate_eq_ite, Violation.forall_iff]
  cases v with
  | notInDepartments => grind [Violation.place]
  | notInRoles => grind [Violation.place]
  | notInScopes => grind [Violation.place]

end

end Condition

/-! ## Larger claim sets -/

/-- Every member of the first set is one of the second. -/
def NameSet.Subset (s t : NameSet) : Prop := ∀ name ∈ s, name ∈ t

instance : HasSubset NameSet := ⟨NameSet.Subset⟩

instance (s t : NameSet) : Decidable (s ⊆ t) :=
  inferInstanceAs (Decidable (∀ name ∈ s.toList, name ∈ t))

/-- Each of the three sets of the first is within that of the second, whoever the two are. -/
structure ClaimSet.Within (c d : ClaimSet) : Prop where
  departments : c.departments ⊆ d.departments
  roles : c.roles ⊆ d.roles
  scopes : c.scopes ⊆ d.scopes

instance (c d : ClaimSet) : Decidable (c.Within d) :=
  decidable_of_iff
    (c.departments ⊆ d.departments ∧ c.roles ⊆ d.roles ∧ c.scopes ⊆ d.scopes)
    ⟨fun ⟨h₁, h₂, h₃⟩ => ⟨h₁, h₂, h₃⟩, fun ⟨h₁, h₂, h₃⟩ => ⟨h₁, h₂, h₃⟩⟩

/-- What a set holds enough for, a larger one does. -/
theorem Requirement.admits_mono {s t : NameSet} (hsub : s ⊆ t) {r : Requirement}
    (hs : r.admits s = true) : r.admits t = true := by
  cases r with
  | wildcard => rfl
  | exact token => exact admits_exact_iff.2 (hsub token (admits_exact_iff.1 hs))
  | all tokens =>
    have hin : ∀ token ∈ tokens, token ∈ s := admits_all_iff.1 hs
    exact admits_all_iff.2 fun token htoken => hsub token (hin token htoken)
  | any tokens =>
    obtain ⟨token, htoken, hmem⟩ := admits_any_iff.1 hs
    exact admits_any_iff.2 ⟨token, htoken, hsub token hmem⟩

/-- A segment that a set satisfies is satisfied by a larger one. -/
theorem satisfies_mono {s t : NameSet} (hsub : s ⊆ t) {segment : String}
    (hs : satisfies s segment = true) : satisfies t segment = true :=
  Requirement.admits_mono hsub hs

section
variable {c d : ClaimSet} {h : Hierarchy}

/-- A dimension that claim sets meet is met by larger ones. -/
theorem Condition.meets_mono {condition : Condition} (hsub : c.Within d) {v : Violation}
    (hc : condition.meets c h v = true) : condition.meets d h v = true := by
  cases v with
  | notInDepartments => exact satisfies_mono hsub.departments hc
  | notInRoles => exact satisfies_mono hsub.roles hc
  | notInScopes => exact satisfies_mono hsub.scopes hc

/-- A condition that is granted on claim sets is granted on larger ones. -/
theorem Condition.evaluate_eq_ok_of_within {condition : Condition} (hsub : c.Within d)
    (hc : condition.evaluate c h = .ok ()) : condition.evaluate d h = .ok () :=
  evaluate_eq_ok_iff.2 fun v => meets_mono hsub (evaluate_eq_ok_iff.1 hc v)

/-- A condition that is refused on claim sets is refused on smaller ones, for the same dimension or
an earlier one. -/
theorem Condition.evaluate_eq_error_of_within {condition : Condition} (hsub : c.Within d)
    {v : Violation} (hd : condition.evaluate d h = .error v) :
    ∃ w, condition.evaluate c h = .error w ∧ w.place ≤ v.place := by
  have hmissed : ¬ condition.meets c h v = true := by
    intro hmet
    exact Bool.eq_false_iff.1 (evaluate_eq_error_iff.1 hd).1 (meets_mono hsub hmet)
  cases hc : condition.evaluate c h with
  | ok _ => exact absurd (evaluate_eq_ok_iff.1 hc v) hmissed
  | error w =>
    refine ⟨w, rfl, Nat.le_of_not_lt fun hlt => ?_⟩
    -- Were `v` checked before `w`, it would be met.
    exact hmissed ((evaluate_eq_error_iff.1 hc).2 v hlt)

/-- **More claims never lose access.** If the three sets of `c` are within those of `d`, a policy
that grants `c` grants `d`, and one that refuses `d` refuses `c` for the same dimension or an
earlier one. Who the claims speak for has no influence. -/
theorem evaluate_mono (hsub : c.Within d) (policy : String) (h : Hierarchy) :
    (evaluate policy c h = .ok () → evaluate policy d h = .ok ()) ∧
      (∀ v, evaluate policy d h = .error v →
        ∃ w, evaluate policy c h = .error w ∧ w.place ≤ v.place) ∧
      ∀ who, evaluate policy { c with authId := who } h = evaluate policy c h ∧
        evaluate policy { d with authId := who } h = evaluate policy d h :=
  ⟨Condition.evaluate_eq_ok_of_within hsub, fun _ => Condition.evaluate_eq_error_of_within hsub,
    fun _ => ⟨rfl, rfl⟩⟩

/-- With `sales` and `lead` a request for `sales:lead+&auditor:read` is refused for its roles, and
with less it is refused for its roles or its departments. -/
theorem refused_with_fewer_claims :
    evaluate "sales:lead+&auditor:read" ⟨some "u-1", .ofList ["sales"], .ofList ["lead"], ∅⟩
        ⟨["member", "lead"]⟩ = .error .notInRoles ∧
      ∃ w, evaluate "sales:lead+&auditor:read" ⟨none, ∅, .ofList ["lead"], ∅⟩
        ⟨["member", "lead"]⟩ = .error w ∧ w.place ≤ Violation.notInRoles.place := by
  have hrefused : evaluate "sales:lead+&auditor:read"
      ⟨some "u-1", .ofList ["sales"], .ofList ["lead"], ∅⟩ ⟨["member", "lead"]⟩ =
        .error .notInRoles := by decide +kernel
  have hsub : ClaimSet.Within ⟨none, ∅, .ofList ["lead"], ∅⟩
      ⟨some "u-1", .ofList ["sales"], .ofList ["lead"], ∅⟩ := by decide +kernel
  exact ⟨hrefused, (evaluate_mono hsub _ _).2.1 _ hrefused⟩

end

end Clearance
