import Clearance.Proofs.Policy.Canonical

/-!
# Evaluating one dimension

A policy text of three segments without colons is cut into these three (`parse_segments`), which are
checked one after the other (`evaluate_segments`), and one with wildcards around its role segment
asks for nothing but that the roles satisfy the expanded segment (`evaluate_roles`). A segment that
lists names is satisfied by a claim set that holds one of them (`satisfies_join`), and one that is a
single name by a claim set that holds it (`satisfies_name`).
-/

namespace Clearance

/-- Three segments without colons are read back from the policy text they make. -/
theorem Condition.parse_segments {d r s : String} (hd : ':' ∉ d.toList) (hr : ':' ∉ r.toList)
    (hs : ':' ∉ s.toList) :
    Condition.parse (d ++ ":" ++ r ++ ":" ++ s) = ⟨d ++ ":" ++ r ++ ":" ++ s, d, r, s⟩ := by
  have hjoin : Condition.canonical ⟨"", d, r, s⟩ = d ++ ":" ++ r ++ ":" ++ s := by
    apply String.toList_inj.1
    simp [canonical, segments, Text.toList_join, List.intercalate_cons_cons]
  have hfree : ∀ segment ∈ Condition.segments ⟨"", d, r, s⟩, ':' ∉ segment.toList :=
    Condition.forall_mem_segments_iff.2 ⟨hd, hr, hs⟩
  have hparse := Condition.parse_canonical hfree
  rw [hjoin] at hparse
  exact hparse

/-- Every claim set satisfies the wildcard. -/
theorem satisfies_wildcard (claims : NameSet) : satisfies claims wildcard = true := rfl

theorem colon_notMem_wildcard : ':' ∉ wildcard.toList := by
  decide

theorem require_wildcard (claims : NameSet) (otherwise : Violation) :
    require claims wildcard otherwise = .ok () := rfl

/-- Three segments without colons are checked one after the other. -/
theorem evaluate_segments {d r s : String} (hd : ':' ∉ d.toList) (hr : ':' ∉ r.toList)
    (hs : ':' ∉ s.toList) (claims : ClaimSet) (h : Hierarchy) :
    evaluate (d ++ ":" ++ r ++ ":" ++ s) claims h = (do
      require claims.departments d .notInDepartments
      require claims.roles (h.expand r) .notInRoles
      require claims.scopes s .notInScopes) := by
  rw [evaluate, Condition.parse_segments hd hr hs]
  rfl

/-- Between wildcards only the expanded role segment is checked. -/
theorem evaluate_roles {segment : String} (hs : ':' ∉ segment.toList) (claims : ClaimSet)
    (h : Hierarchy) :
    evaluate ("*:" ++ segment ++ ":*") claims h =
      require claims.roles (h.expand segment) .notInRoles := by
  have htext : "*:" ++ segment ++ ":*" = wildcard ++ ":" ++ segment ++ ":" ++ wildcard := by
    apply String.toList_inj.1
    simp [wildcard]
  rw [htext, evaluate_segments colon_notMem_wildcard hs colon_notMem_wildcard, require_wildcard,
    require_wildcard]
  cases require claims.roles (h.expand segment) .notInRoles <;> rfl

/-! ## Lists of names -/

/-- The name holds no delimiter of lists. -/
def IsListable (name : String) : Prop := '&' ∉ name.toList ∧ '|' ∉ name.toList

instance (name : String) : Decidable (IsListable name) :=
  inferInstanceAs (Decidable (_ ∧ _))

/-- **OR lists.** A list of names is satisfied by a claim set that holds one of them. A list of one
name must not be a wildcard. -/
theorem satisfies_join {names : List String} (hl : ∀ n ∈ names, IsListable n) (hne : names ≠ [])
    (hw : ∀ n, names = [n] → n ≠ "" ∧ n ≠ wildcard) (claims : NameSet) :
    satisfies claims (Text.join '|' names) = names.any (· ∈ claims) := by
  have hor : Text.split '|' (Text.join '|' names) = names :=
    Text.split_join '|' (fun n hn => (hl n hn).2) hne
  have hand : Text.split '&' (Text.join '|' names) = [Text.join '|' names] :=
    Text.split_of_notMem (Text.notMem_join (by decide) fun n hn => (hl n hn).1)
  cases names with
  | nil => exact absurd rfl hne
  | cons n rest =>
    cases rest with
    | nil =>
      obtain ⟨hempty, hstar⟩ := hw n rfl
      have hone : Text.join '|' [n] = n := by simp [Text.join]
      rw [hone] at hor hand ⊢
      unfold satisfies Requirement.ofSegment
      rw [if_neg (by simp [hempty, hstar])]
      simp only [hor, hand, if_true]
      simp [Requirement.admits]
    | cons m rest =>
      have hbar : '|' ∈ (Text.join '|' (n :: m :: rest)).toList := by
        simp [Text.toList_join, List.intercalate_cons_cons]
      have hlong : ¬ (Text.join '|' (n :: m :: rest) = "" ∨
          Text.join '|' (n :: m :: rest) = wildcard) := by
        rintro (h | h)
        · rw [h] at hbar
          exact absurd hbar (by decide)
        · rw [h] at hbar
          exact absurd hbar (by decide)
      unfold satisfies Requirement.ofSegment
      rw [if_neg hlong]
      simp only [hor, hand]
      rw [if_neg (by simp), if_neg (by simp)]
      rfl

/-- A name is satisfied by the claim sets that hold it. -/
theorem satisfies_name {name : String} (hl : IsListable name) (hne : name ≠ "")
    (hw : name ≠ wildcard) (claims : NameSet) : satisfies claims name = true ↔ name ∈ claims := by
  have hjoin : Text.join '|' [name] = name := by simp [Text.join]
  have hlist : ∀ n ∈ [name], IsListable n := by simpa using hl
  have hsole : ∀ n, [name] = [n] → n ≠ "" ∧ n ≠ wildcard := by
    intro n hn
    obtain rfl : name = n := by simpa using hn
    exact ⟨hne, hw⟩
  have hone := satisfies_join hlist (by simp) hsole claims
  rw [hjoin] at hone
  simp [hone]

end Clearance
