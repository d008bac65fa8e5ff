import Clearance.Proofs.Policy.Wildcard
import Mathlib.Data.List.GetD

/-!
# Truncated policies

A policy text that goes on behind a colon has the segments of the text before that colon, and
further ones after them (`Condition.segmentsOf_append`). A segment that is not written is the
wildcard, which everyone meets under every hierarchy (`Condition.meets_of_wildcard`). So a truncated
policy asks the same in the dimensions that are left and nothing in the others, and truncating never
takes access away (`evaluate_of_truncated`).
-/

namespace Clearance

namespace Condition

section
variable {c d : Condition} {claims : ClaimSet} {h : Hierarchy} {v : Violation}

/-! ## The segment of a dimension -/

/-- The segment of the dimension as it is written. -/
def segmentFor (c : Condition) : Violation → String
  | .notInDepartments => c.departments
  | .notInRoles => c.roles
  | .notInScopes => c.scopes

/-- The segments of a policy text stand in the order of the checks. -/
theorem segmentFor_parse (policy : String) (v : Violation) :
    (parse policy).segmentFor v = segmentAt policy v.place := by
  cases v with
  | notInDepartments | notInRoles | notInScopes => rfl

/-- Whether a dimension is met depends on no segment but its own. -/
theorem meets_congr (hsame : c.segmentFor v = d.segmentFor v) :
    c.meets claims h v = d.meets claims h v := by
  cases v with
  | notInDepartments => exact congrArg (satisfies claims.departments) hsame
  | notInRoles => exact congrArg (fun segment => satisfies claims.roles (h.expand segment)) hsame
  | notInScopes => exact congrArg (satisfies claims.scopes) hsame

/-- The wildcard is met in every dimension. For roles, it is still the wildcard after expansion. -/
theorem meets_of_wildcard (hw : c.segmentFor v = wildcard) : c.meets claims h v = true := by
  cases v with
  | notInDepartments =>
    have hd : c.departments = wildcard := hw
    rw [meets, hd, satisfies_wildcard]
  | notInRoles =>
    have hr : c.roles = wildcard := hw
    rw [meets, hr, Hierarchy.expand_of_isWildcard (.inr rfl), satisfies_wildcard]
  | notInScopes =>
    have hs : c.scopes = wildcard := hw
    rw [meets, hs, satisfies_wildcard]

end

/-! ## Texts that go on -/

section
variable {policy : String} {position : Nat}

theorem segmentsOf_append (policy more : String) :
    segmentsOf (policy ++ ":" ++ more) = segmentsOf policy ++ segmentsOf more := by
  have hcolon : (policy ++ ":" ++ more).toList = policy.toList ++ ':' :: more.toList := by simp
  rw [segmentsOf, Text.split, hcolon, List.splitOn_append_cons_self, List.map_append]
  rfl

/-- The segments before the colon stay where they are. -/
theorem segmentAt_append (hp : position ≤ policy.toList.count ':') (more : String) :
    segmentAt (policy ++ ":" ++ more) position = segmentAt policy position := by
  have hlt : position < (segmentsOf policy).length := by
    rw [segmentsOf, Text.length_split]
    exact Nat.lt_succ_of_le hp
  rw [segmentAt, segmentsOf_append, List.getD_append _ _ _ _ hlt, segmentAt]

/-- A segment behind the last colon is not written. -/
theorem segmentAt_eq_wildcard (hp : policy.toList.count ':' < position) :
    segmentAt policy position = wildcard := by
  refine List.getD_eq_default _ _ ?_
  rw [segmentsOf, Text.length_split]
  exact hp

variable {claims : ClaimSet} {h : Hierarchy} {v : Violation}

/-- A dimension whose segment is written is met as before when the text goes on. -/
theorem meets_append (hp : v.place ≤ policy.toList.count ':') (more : String) :
    (parse (policy ++ ":" ++ more)).meets claims h v = (parse policy).meets claims h v := by
  apply meets_congr
  rw [segmentFor_parse, segmentFor_parse, segmentAt_append hp]

/-- A dimension whose segment is not written is met. -/
theorem meets_of_count_lt (hp : policy.toList.count ':' < v.place) :
    (parse policy).meets claims h v = true := by
  apply meets_of_wildcard
  rw [segmentFor_parse, segmentAt_eq_wildcard hp]

/-- A dimension that is met when the text goes on is met without that. -/
theorem meets_of_append {more : String}
    (hmet : (parse (policy ++ ":" ++ more)).meets claims h v = true) :
    (parse policy).meets claims h v = true := by
  rcases Nat.lt_or_ge (policy.toList.count ':') v.place with hlt | hle
  · exact meets_of_count_lt hlt
  · rwa [meets_append hle] at hmet

end

end Condition

/-! ## Truncation -/

/-- **Truncating widens.** A policy that is granted stays granted when it is cut at one of its
colons, and what the part before the colon is refused for, the whole policy is refused for. Behind
two colons or more, nothing counts. -/
theorem evaluate_of_truncated (policy more : String) (claims : ClaimSet) (h : Hierarchy) :
    (evaluate (policy ++ ":" ++ more) claims h = .ok () → evaluate policy claims h = .ok ()) ∧
      (∀ v, evaluate policy claims h = .error v →
        evaluate (policy ++ ":" ++ more) claims h = .error v) ∧
      (2 ≤ policy.toList.count ':' →
        evaluate (policy ++ ":" ++ more) claims h = evaluate policy claims h) := by
  refine ⟨fun hok => ?_, fun v hv => ?_, fun htwo => ?_⟩
  · have hmet := Condition.evaluate_eq_ok_iff.1 hok
    exact Condition.evaluate_eq_ok_iff.2 fun v => Condition.meets_of_append (hmet v)
  · obtain ⟨hmissed, hearlier⟩ := Condition.evaluate_eq_error_iff.1 hv
    -- The segment that is missed is no wildcard, so it is written, and the earlier ones are too.
    have hwritten : v.place ≤ policy.toList.count ':' := by
      by_contra hlt
      have hmet : (Condition.parse policy).meets claims h v = true :=
        Condition.meets_of_count_lt (not_le.1 hlt)
      exact Bool.eq_false_iff.1 hmissed hmet
    refine Condition.evaluate_eq_error_iff.2 ⟨?_, fun w hw => ?_⟩
    · rw [Condition.meets_append hwritten, hmissed]
    · rw [Condition.meets_append (hw.le.trans hwritten), hearlier w hw]
  · have hplace : ∀ v : Violation, v.place ≤ 2 := by
      rw [Violation.forall_iff]
      decide
    exact Condition.evaluate_congr fun v => Condition.meets_append ((hplace v).trans htwo) more

/-- `:lead+::x` asks for no scope and is granted to `member`, and so is `:lead+`. A policy of `hr` is
refused to others for the department, with and without segments behind it. Behind a third segment
that is missed, more text does not count. -/
theorem truncated_before_scopes :
    evaluate ":lead+" ⟨none, ∅, .ofList ["member"], ∅⟩ ⟨["member", "lead"]⟩ = .ok () ∧
      evaluate ("hr" ++ ":" ++ "lead+:read") ⟨none, ∅, .ofList ["lead"], ∅⟩ ⟨["member", "lead"]⟩ =
        .error .notInDepartments ∧
      evaluate (":lead+:write" ++ ":" ++ "x:y") ⟨none, ∅, .ofList ["member"], ∅⟩
        ⟨["member", "lead"]⟩ = .error .notInScopes := by
  refine ⟨?_, ?_, ?_⟩
  · exact (evaluate_of_truncated ":lead+" ":x" _ _).1 (by decide +kernel)
  · exact (evaluate_of_truncated "hr" "lead+:read" _ _).2.1 _ (by decide +kernel)
  · exact ((evaluate_of_truncated ":lead+:write" "x:y" _ _).2.2 (by decide)).trans
      (by decide +kernel)

end Clearance
