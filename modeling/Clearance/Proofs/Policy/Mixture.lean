import Clearance.Proofs.Policy.Wildcard

/-!
# Segments with both delimiters

By convention a segment is a list of alternatives between `|`, each of them a list of tokens between
`&` of which all are asked for (`NameSet.HoldsAlternative`). A segment with one delimiter at most is
read in this way (`satisfies_iff_of_notMem`). One with both is cut at the delimiter that occurs more
often, and a piece that still holds the other delimiter is not found among names without delimiters
(`satisfies_iff_of_mem`). So such a segment may ask for more than the convention says and never asks
for less (`satisfies_only_alternatives`).
-/

namespace Clearance

/-- The claim set holds every token of some alternative of the segment. -/
def NameSet.HoldsAlternative (claims : NameSet) (segment : String) : Prop :=
  ∃ alternative ∈ Text.split '|' segment, ∀ token ∈ Text.split '&' alternative, token ∈ claims

instance (claims : NameSet) (segment : String) : Decidable (claims.HoldsAlternative segment) :=
  inferInstanceAs (Decidable (∃ alternative ∈ _, ∀ token ∈ _, token ∈ claims))

section
variable {claims : NameSet} {segment : String}

/-! ## Counting delimiters -/

/-- The delimiter that occurs more often cuts a segment, and a tie leaves it whole. -/
theorem Requirement.ofSegment_of_not_isWildcard (hw : ¬ IsWildcard segment) :
    ofSegment segment =
      if segment.toList.count '&' = segment.toList.count '|' then exact segment
      else if segment.toList.count '|' < segment.toList.count '&' then
        all (Text.split '&' segment)
      else any (Text.split '|' segment) := by
  have hw' : ¬ (segment = "" ∨ segment = Clearance.wildcard) := hw
  unfold ofSegment
  rw [if_neg hw']
  simp only [Text.length_split, Nat.add_right_cancel_iff, Nat.add_lt_add_iff_right]

/-- A wildcard holds no delimiter. -/
theorem not_isWildcard_of_mem {d : Char} (hd : d ≠ '*') (hmem : d ∈ segment.toList) :
    ¬ IsWildcard segment := by
  intro hw
  have hstar : d ∈ ['*'] := (isWildcard_iff_isInfix.1 hw).subset hmem
  exact hd (List.mem_singleton.1 hstar)

/-! ## One delimiter at most -/

/-- Without `&` the alternatives are the tokens. -/
theorem NameSet.holdsAlternative_iff_exists (hand : '&' ∉ segment.toList) :
    claims.HoldsAlternative segment ↔
      ∃ alternative ∈ Text.split '|' segment, alternative ∈ claims := by
  have hsingle : ∀ alternative ∈ Text.split '|' segment,
      Text.split '&' alternative = [alternative] := by
    intro alternative halt
    refine Text.split_of_notMem fun hmem => hand ?_
    exact (Text.exists_mem_split_iff.1 ⟨alternative, halt, hmem⟩).1
  constructor
  · rintro ⟨alternative, halt, hall⟩
    rw [hsingle alternative halt] at hall
    exact ⟨alternative, halt, List.forall_mem_singleton.1 hall⟩
  · rintro ⟨alternative, halt, hmem⟩
    refine ⟨alternative, halt, ?_⟩
    rw [hsingle alternative halt]
    exact List.forall_mem_singleton.2 hmem

/-- Without `|` the segment is the only alternative. -/
theorem NameSet.holdsAlternative_iff_forall (hor : '|' ∉ segment.toList) :
    claims.HoldsAlternative segment ↔ ∀ token ∈ Text.split '&' segment, token ∈ claims := by
  rw [HoldsAlternative, Text.split_of_notMem hor]
  simp only [List.mem_singleton, exists_eq_left]

/-- **One delimiter at most.** Such a segment asks for what the convention says, of any claim set. -/
theorem satisfies_iff_of_notMem (hw : ¬ IsWildcard segment)
    (hone : '&' ∉ segment.toList ∨ '|' ∉ segment.toList) :
    satisfies claims segment = true ↔ claims.HoldsAlternative segment := by
  rw [satisfies, Requirement.ofSegment_of_not_isWildcard hw]
  by_cases hor : '|' ∈ segment.toList
  · have hand : '&' ∉ segment.toList := hone.resolve_right (not_not_intro hor)
    have hmore : 0 < segment.toList.count '|' := List.count_pos_iff.2 hor
    rw [List.count_eq_zero.2 hand, if_neg hmore.ne, if_neg (Nat.not_lt_zero _),
      Requirement.admits_any_iff, NameSet.holdsAlternative_iff_exists hand]
  · rw [List.count_eq_zero.2 hor, NameSet.holdsAlternative_iff_forall hor]
    by_cases hand : '&' ∈ segment.toList
    · have hmore : 0 < segment.toList.count '&' := List.count_pos_iff.2 hand
      rw [if_neg hmore.ne', if_pos hmore, Requirement.admits_all_iff]
    · rw [List.count_eq_zero.2 hand, if_pos rfl, Requirement.admits_exact_iff,
        Text.split_of_notMem hand, List.forall_mem_singleton]

/-! ## Both delimiters -/

/-- **Both delimiters.** For names without delimiters such a segment is satisfied only if `|` occurs
in it more often than `&`, and then by the claim sets that hold one of its alternatives as a name. -/
theorem satisfies_iff_of_mem (hfree : ∀ name ∈ claims, IsListable name)
    (hand : '&' ∈ segment.toList) (hor : '|' ∈ segment.toList) :
    satisfies claims segment = true ↔
      segment.toList.count '&' < segment.toList.count '|' ∧
        ∃ alternative ∈ Text.split '|' segment, alternative ∈ claims := by
  have hw : ¬ IsWildcard segment := not_isWildcard_of_mem (by decide) hand
  rw [satisfies, Requirement.ofSegment_of_not_isWildcard hw]
  rcases Nat.lt_trichotomy (segment.toList.count '&') (segment.toList.count '|') with
    hlt | heq | hgt
  · rw [if_neg hlt.ne, if_neg hlt.asymm, Requirement.admits_any_iff]
    exact (and_iff_right hlt).symm
  · rw [if_pos heq, Requirement.admits_exact_iff]
    -- The whole segment is no name, since it holds a delimiter.
    refine iff_of_false (fun hmem => (hfree segment hmem).1 hand) fun h => ?_
    exact h.1.ne heq
  · rw [if_neg hgt.ne', if_pos hgt, Requirement.admits_all_iff]
    -- Some token holds a `|` and is no name either.
    have hne : '|' ≠ '&' := by decide
    obtain ⟨token, htoken, hbar⟩ := Text.exists_mem_split_iff.2 ⟨hor, hne⟩
    refine iff_of_false (fun hall => (hfree token (hall token htoken)).2 hbar) fun h => ?_
    exact h.1.asymm hgt

/-- An alternative that is itself a name is one that is held. -/
theorem NameSet.holdsAlternative_of_mem (hfree : ∀ name ∈ claims, IsListable name)
    {alternative : String} (halt : alternative ∈ Text.split '|' segment)
    (hmem : alternative ∈ claims) : claims.HoldsAlternative segment := by
  refine ⟨alternative, halt, ?_⟩
  rw [Text.split_of_notMem (hfree alternative hmem).1]
  exact List.forall_mem_singleton.2 hmem

/-- **Never less than the convention.** For names without delimiters, a segment other than the
wildcards is satisfied only by claim sets that hold all tokens of one of its alternatives. With one
delimiter at most it is satisfied by all of them. With both, and at least as many `&` as `|`, it is
satisfied by none. -/
theorem satisfies_only_alternatives (hfree : ∀ name ∈ claims, IsListable name)
    (hw : ¬ IsWildcard segment) :
    (satisfies claims segment = true → claims.HoldsAlternative segment) ∧
      ('&' ∉ segment.toList ∨ '|' ∉ segment.toList →
        claims.HoldsAlternative segment → satisfies claims segment = true) ∧
      ('&' ∈ segment.toList → '|' ∈ segment.toList →
        segment.toList.count '|' ≤ segment.toList.count '&' →
        satisfies claims segment = false) := by
  refine ⟨fun hsat => ?_, fun hone => (satisfies_iff_of_notMem hw hone).2,
    fun hand hor hle => ?_⟩
  · by_cases hone : '&' ∉ segment.toList ∨ '|' ∉ segment.toList
    · exact (satisfies_iff_of_notMem hw hone).1 hsat
    · obtain ⟨hand, hor⟩ := not_or.1 hone
      obtain ⟨-, alternative, halt, hmem⟩ :=
        (satisfies_iff_of_mem hfree (not_not.1 hand) (not_not.1 hor)).1 hsat
      exact NameSet.holdsAlternative_of_mem hfree halt hmem
  · rw [Bool.eq_false_iff]
    intro hsat
    exact ((satisfies_iff_of_mem hfree hand hor).1 hsat).1.not_ge hle

/-- Of the names `read`, `write` and `audit`, the first is an alternative of `read|log|audit&admin`,
and `read&write` asks for two. `write&audit|read` is never satisfied, though both of its alternatives
are held. -/
theorem mixed_segments_of_scopes :
    NameSet.HoldsAlternative (.ofList ["read", "write", "audit"]) "read|log|audit&admin" ∧
      satisfies (.ofList ["read", "write", "audit"]) "read&write" = true ∧
      satisfies (.ofList ["read", "write", "audit"]) "write&audit|read" = false := by
  have hfree : ∀ name ∈ (NameSet.ofList ["read", "write", "audit"]).toList, IsListable name := by
    decide +kernel
  refine ⟨?_, ?_, ?_⟩
  · exact (satisfies_only_alternatives hfree (by decide)).1 (by decide +kernel)
  · exact (satisfies_only_alternatives hfree (by decide)).2.1 (by decide) (by decide +kernel)
  · exact (satisfies_only_alternatives hfree (by decide)).2.2 (by decide) (by decide) (by decide)

end

end Clearance
