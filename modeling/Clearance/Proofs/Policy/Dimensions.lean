import Clearance.Proofs.Policy.Truncation

/-!
# The three dimensions of a policy

A policy text with wildcards around one segment checks that segment alone, against one of the three
sets and, but for roles, without the hierarchy (`evaluate_departments`, `evaluate_roles`,
`evaluate_scopes`). The verdict about a policy is the first refusal among the verdicts about its
segments (`evaluate_eq_firstRefusal`). Nothing that stands behind the department segment can make up
for it (`evaluate_of_departments_missed`).
-/

namespace Clearance

/-! ## Sequences of verdicts -/

/-- The first refusal among verdicts, or access if there is none. -/
def firstRefusal : List (Except Violation Unit) → Except Violation Unit
  | [] => .ok ()
  | .ok _ :: rest => firstRefusal rest
  | .error v :: _ => .error v

theorem firstRefusal_cons (verdict : Except Violation Unit) (rest : List (Except Violation Unit)) :
    firstRefusal (verdict :: rest) = (do verdict; firstRefusal rest) := by
  cases verdict with
  | ok _ | error _ => rfl

theorem firstRefusal_singleton (verdict : Except Violation Unit) :
    firstRefusal [verdict] = verdict := by
  cases verdict with
  | ok _ | error _ => rfl

/-- A segment is refused for its own dimension. -/
theorem eq_of_require_eq_error {claims : NameSet} {segment : String} {otherwise v : Violation}
    (h : require claims segment otherwise = .error v) : v = otherwise := by
  rw [require] at h
  split at h
  · cases h
  · exact (Except.error.inj h).symm

/-! ## One segment between wildcards -/

section
variable {d r s : String} {claims : ClaimSet} {h : Hierarchy}

/-- In front of wildcards only the department segment is checked. -/
theorem evaluate_departments (hd : ':' ∉ d.toList) (claims : ClaimSet) (h : Hierarchy) :
    evaluate (d ++ ":*:*") claims h = require claims.departments d .notInDepartments := by
  have htext : d ++ ":*:*" = d ++ ":" ++ wildcard ++ ":" ++ wildcard := by
    apply String.toList_inj.1
    simp [wildcard]
  rw [htext, evaluate_segments hd colon_notMem_wildcard colon_notMem_wildcard,
    Hierarchy.expand_of_isWildcard (.inr rfl), require_wildcard, require_wildcard]
  cases require claims.departments d .notInDepartments <;> rfl

/-- Behind wildcards only the scope segment is checked. -/
theorem evaluate_scopes (hs : ':' ∉ s.toList) (claims : ClaimSet) (h : Hierarchy) :
    evaluate ("*:*:" ++ s) claims h = require claims.scopes s .notInScopes := by
  have htext : "*:*:" ++ s = wildcard ++ ":" ++ wildcard ++ ":" ++ s := by
    apply String.toList_inj.1
    simp [wildcard]
  rw [htext, evaluate_segments colon_notMem_wildcard colon_notMem_wildcard hs,
    Hierarchy.expand_of_isWildcard (.inr rfl), require_wildcard, require_wildcard]
  rfl

/-! ## All segments -/

/-- The verdict is the first refusal among the verdicts about the segments. -/
theorem evaluate_eq_firstRefusal (hd : ':' ∉ d.toList) (hr : ':' ∉ r.toList)
    (hs : ':' ∉ s.toList) (claims : ClaimSet) (h : Hierarchy) :
    evaluate (d ++ ":" ++ r ++ ":" ++ s) claims h =
      firstRefusal [evaluate (d ++ ":*:*") claims h, evaluate ("*:" ++ r ++ ":*") claims h,
        evaluate ("*:*:" ++ s) claims h] := by
  rw [evaluate_segments hd hr hs, evaluate_departments hd, evaluate_roles hr, evaluate_scopes hs,
    firstRefusal_cons, firstRefusal_cons, firstRefusal_singleton]

/-- A department segment that is missed refuses every policy that begins with it, whatever follows
and under every hierarchy. -/
theorem evaluate_of_departments_missed (hd : ':' ∉ d.toList)
    (hmissed : satisfies claims.departments d = false) (more : String) :
    evaluate (d ++ ":" ++ more) claims h = .error .notInDepartments := by
  have hsegment : Condition.segmentAt d 0 = d := by
    rw [Condition.segmentAt, Condition.segmentsOf, Text.split_of_notMem hd]
    rfl
  have hdepartments : (Condition.parse (d ++ ":" ++ more)).departments = d :=
    (Condition.segmentAt_append (Nat.zero_le _) more).trans hsegment
  refine Condition.evaluate_eq_error_iff.2 ⟨?_, fun w hw => absurd hw (Nat.not_lt_zero _)⟩
  rw [Condition.meets, hdepartments, hmissed]

/-- **The ordered conjunction of three dimensions.** For segments without colons, a policy is decided
as its three segments are when each stands alone between wildcards: the first refusal among them
counts. Each is refused for its own dimension only. A department that is refused is refused whatever
the other segments, the other claims and the hierarchy are. Each dimension reads its own set of the
claims, and only the one of roles depends on the hierarchy. -/
theorem evaluate_by_dimension (hd : ':' ∉ d.toList) (hr : ':' ∉ r.toList) (hs : ':' ∉ s.toList)
    (claims : ClaimSet) (h : Hierarchy) :
    evaluate (d ++ ":" ++ r ++ ":" ++ s) claims h =
        firstRefusal [evaluate (d ++ ":*:*") claims h, evaluate ("*:" ++ r ++ ":*") claims h,
          evaluate ("*:*:" ++ s) claims h] ∧
      (∀ v, (evaluate (d ++ ":*:*") claims h = .error v → v = .notInDepartments) ∧
        (evaluate ("*:" ++ r ++ ":*") claims h = .error v → v = .notInRoles) ∧
        (evaluate ("*:*:" ++ s) claims h = .error v → v = .notInScopes)) ∧
      (evaluate (d ++ ":*:*") claims h ≠ .ok () →
        ∀ (r' s' : String) (claims' : ClaimSet) (h' : Hierarchy),
          claims'.departments = claims.departments →
          evaluate (d ++ ":" ++ r' ++ ":" ++ s') claims' h' = .error .notInDepartments) ∧
      ∀ (claims' : ClaimSet) (h' : Hierarchy),
        (claims'.departments = claims.departments →
          evaluate (d ++ ":*:*") claims' h' = evaluate (d ++ ":*:*") claims h) ∧
        (claims'.roles = claims.roles →
          evaluate ("*:" ++ r ++ ":*") claims' h = evaluate ("*:" ++ r ++ ":*") claims h) ∧
        (claims'.scopes = claims.scopes →
          evaluate ("*:*:" ++ s) claims' h' = evaluate ("*:*:" ++ s) claims h) := by
  refine ⟨evaluate_eq_firstRefusal hd hr hs claims h, ?_, ?_, ?_⟩
  · intro v
    rw [evaluate_departments hd, evaluate_roles hr, evaluate_scopes hs]
    exact ⟨eq_of_require_eq_error, eq_of_require_eq_error, eq_of_require_eq_error⟩
  · intro hrefused r' s' claims' h' hsame
    have hmissed : satisfies claims'.departments d = false := by
      rw [hsame, Bool.eq_false_iff]
      intro hmet
      rw [evaluate_departments hd, require, if_pos hmet] at hrefused
      exact hrefused rfl
    have htext : d ++ ":" ++ r' ++ ":" ++ s' = d ++ ":" ++ (r' ++ ":" ++ s') := by
      simp only [String.append_assoc]
    rw [htext, evaluate_of_departments_missed hd hmissed]
  · intro claims' h'
    rw [evaluate_departments hd, evaluate_departments hd, evaluate_roles hr, evaluate_roles hr,
      evaluate_scopes hs, evaluate_scopes hs]
    refine ⟨fun hsame => ?_, fun hsame => ?_, fun hsame => ?_⟩
    · rw [hsame]
    · rw [hsame]
    · rw [hsame]

/-- A member of `sales` who may neither read nor write is refused for the scopes only, since `lead+`
is met by `member`. For a policy of another department the segments behind it do not matter. -/
theorem refused_for_scopes_and_for_department :
    evaluate "sales:lead+:read|write" ⟨none, .ofList ["sales"], .ofList ["member"], ∅⟩
        ⟨["member", "lead"]⟩ = .error .notInScopes ∧
      ∀ r' s' h', evaluate ("hr" ++ ":" ++ r' ++ ":" ++ s')
        ⟨some "u-1", .ofList ["sales"], .ofList ["lead"], .ofList ["read"]⟩ h' =
          .error .notInDepartments := by
  constructor
  · have htext : "sales:lead+:read|write" = "sales" ++ ":" ++ "lead+" ++ ":" ++ "read|write" := by
      decide +kernel
    rw [htext, (evaluate_by_dimension (by decide) (by decide) (by decide) _ _).1]
    decide +kernel
  · intro r' s' h'
    have hrefused : evaluate ("hr" ++ ":*:*") ⟨none, .ofList ["sales"], ∅, ∅⟩ ⟨[]⟩ ≠ .ok () := by
      decide +kernel
    exact (evaluate_by_dimension (r := "*") (s := "*") (by decide) (by decide) (by decide) _
      _).2.2.1 hrefused r' s' _ h' rfl

end

end Clearance
