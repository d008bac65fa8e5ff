import Clearance.Proofs.Policy.Mixture

/-!
# Lists in segments

A segment that is cut at a delimiter is the list of its pieces, and a list of tokens without the
delimiter is the list of the segment that it is written as (`IsListOf`, `isListOf_iff_split`). A
segment is read as one of its two lists exactly if the delimiter of that list occurs more often than
the other (`Requirement.ofSegment_eq_all_iff`, `Requirement.ofSegment_eq_any_iff`). Between `n`
tokens a delimiter occurs `n - 1` times, so that the tokens may hold fewer of the other delimiter
than that and are still read back (`ofSegment_faithful`).
-/

namespace Clearance

/-- The segment is the list of two or more tokens with the delimiter between them. -/
structure IsListOf (d : Char) (tokens : List String) (segment : String) : Prop where
  /-- One token is no list. -/
  two_le_length : 2 ≤ tokens.length
  /-- The delimiter stands between tokens only. -/
  notMem : ∀ token ∈ tokens, d ∉ token.toList
  /-- The tokens make up the segment. -/
  join_eq : Text.join d tokens = segment

section
variable {c d : Char} {tokens : List String} {segment : String}

/-! ## Lists and pieces -/

theorem IsListOf.split_eq (hl : IsListOf d tokens segment) : Text.split d segment = tokens := by
  have hne : tokens ≠ [] := List.ne_nil_of_length_pos (by have := hl.two_le_length; omega)
  rw [← hl.join_eq, Text.split_join d hl.notMem hne]

/-- Between the tokens the delimiter occurs once less than there are tokens. -/
theorem IsListOf.count_add_one (hl : IsListOf d tokens segment) :
    segment.toList.count d + 1 = tokens.length := by
  rw [← Text.length_split, hl.split_eq]

theorem IsListOf.mem (hl : IsListOf d tokens segment) : d ∈ segment.toList := by
  have htwo := hl.two_le_length
  have hcount := hl.count_add_one
  exact List.count_pos_iff.1 (by omega)

/-- A segment is a list of its pieces and of nothing else. -/
theorem isListOf_iff_split :
    IsListOf d tokens segment ↔ d ∈ segment.toList ∧ Text.split d segment = tokens := by
  constructor
  · intro hl
    exact ⟨hl.mem, hl.split_eq⟩
  · rintro ⟨hmem, rfl⟩
    have hcount : 0 < segment.toList.count d := List.count_pos_iff.2 hmem
    have htwo : 2 ≤ (Text.split d segment).length := by
      rw [Text.length_split]
      omega
    exact ⟨htwo, fun token htoken => Text.notMem_of_mem_split htoken, Text.join_split d segment⟩

/-- Another delimiter occurs less often in the segment if the tokens hold fewer of it than there are
places between them. -/
theorem IsListOf.count_lt_iff (hl : IsListOf d tokens segment) (hne : c ≠ d) :
    segment.toList.count c < segment.toList.count d ↔
      (tokens.flatMap String.toList).count c + 1 < tokens.length := by
  rw [← hl.count_add_one, ← Text.count_join_of_ne hne, hl.join_eq, Nat.add_lt_add_iff_right]

namespace Requirement

/-! ## Reading a segment as a list -/

/-- A segment is read as an AND list of the given tokens exactly if it is this list and `&` occurs in
it more often than `|`. -/
theorem ofSegment_eq_all_iff :
    ofSegment segment = all tokens ↔
      IsListOf '&' tokens segment ∧ segment.toList.count '|' < segment.toList.count '&' := by
  by_cases hw : IsWildcard segment
  · rw [ofSegment_eq_wildcard_iff.2 hw]
    refine iff_of_false nofun fun h => ?_
    exact not_isWildcard_of_mem (by decide) h.1.mem hw
  · rw [ofSegment_of_not_isWildcard hw]
    by_cases hlt : segment.toList.count '|' < segment.toList.count '&'
    · have hmem : '&' ∈ segment.toList := List.count_pos_iff.1 (Nat.zero_lt_of_lt hlt)
      rw [if_neg hlt.ne', if_pos hlt, all.injEq, isListOf_iff_split]
      exact ⟨fun hsplit => ⟨⟨hmem, hsplit⟩, hlt⟩, fun h => h.1.2⟩
    · rw [if_neg hlt]
      refine iff_of_false ?_ fun h => hlt h.2
      split <;> exact nofun

/-- A segment is read as an OR list of the given tokens exactly if it is this list and `|` occurs in
it more often than `&`. -/
theorem ofSegment_eq_any_iff :
    ofSegment segment = any tokens ↔
      IsListOf '|' tokens segment ∧ segment.toList.count '&' < segment.toList.count '|' := by
  by_cases hw : IsWildcard segment
  · rw [ofSegment_eq_wildcard_iff.2 hw]
    refine iff_of_false nofun fun h => ?_
    exact not_isWildcard_of_mem (by decide) h.1.mem hw
  · rw [ofSegment_of_not_isWildcard hw]
    by_cases hlt : segment.toList.count '&' < segment.toList.count '|'
    · have hmem : '|' ∈ segment.toList := List.count_pos_iff.1 (Nat.zero_lt_of_lt hlt)
      rw [if_neg hlt.ne, if_neg hlt.asymm, any.injEq, isListOf_iff_split]
      exact ⟨fun hsplit => ⟨⟨hmem, hsplit⟩, hlt⟩, fun h => h.1.2⟩
    · refine iff_of_false ?_ fun h => hlt h.2
      split
      · exact nofun
      · rw [if_pos (by omega)]
        exact nofun

/-- A token that is asked for alone is the whole segment. -/
theorem eq_of_ofSegment_eq_exact {token : String} (h : ofSegment segment = exact token) :
    token = segment := by
  rcases ofSegment_cases segment with hreq | hreq | hreq | hreq
  · exact absurd (hreq.symm.trans h) nofun
  · exact (exact.inj (hreq.symm.trans h)).symm
  · exact absurd (hreq.symm.trans h) nofun
  · exact absurd (hreq.symm.trans h) nofun

/-! ## Reading back -/

/-- **Nothing is lost.** The wildcards are `""` and `*`; any other segment is read as the whole of
itself or as a list that makes up the segment. Two or more tokens without `&` are read back from
their AND list exactly if they hold fewer `|` than there are places between them, and such a list is
satisfied by the claim sets that hold every token; so it is for OR lists with the two delimiters
exchanged, which are satisfied by the claim sets that hold some token. -/
theorem ofSegment_faithful :
    (∀ segment,
        (ofSegment segment = wildcard ↔ segment = "" ∨ segment = "*") ∧
        (∀ tokens, ofSegment segment = all tokens → IsListOf '&' tokens segment) ∧
        (∀ tokens, ofSegment segment = any tokens → IsListOf '|' tokens segment) ∧
        ∀ token, ofSegment segment = exact token → token = segment) ∧
      ∀ tokens : List String, 2 ≤ tokens.length →
        ((∀ token ∈ tokens, '&' ∉ token.toList) →
          (ofSegment (Text.join '&' tokens) = all tokens ↔
              (tokens.flatMap String.toList).count '|' + 1 < tokens.length) ∧
            ((tokens.flatMap String.toList).count '|' + 1 < tokens.length → ∀ claims,
              satisfies claims (Text.join '&' tokens) = true ↔ ∀ token ∈ tokens, token ∈ claims)) ∧
        ((∀ token ∈ tokens, '|' ∉ token.toList) →
          (ofSegment (Text.join '|' tokens) = any tokens ↔
              (tokens.flatMap String.toList).count '&' + 1 < tokens.length) ∧
            ((tokens.flatMap String.toList).count '&' + 1 < tokens.length → ∀ claims,
              satisfies claims (Text.join '|' tokens) = true ↔
                ∃ token ∈ tokens, token ∈ claims)) := by
  refine ⟨fun segment => ⟨ofSegment_eq_wildcard_iff, fun tokens h => (ofSegment_eq_all_iff.1 h).1,
    fun tokens h => (ofSegment_eq_any_iff.1 h).1, fun token h => eq_of_ofSegment_eq_exact h⟩,
    fun tokens htwo => ⟨fun hand => ?_, fun hor => ?_⟩⟩
  · have hl : IsListOf '&' tokens (Text.join '&' tokens) := ⟨htwo, hand, rfl⟩
    have hread : ofSegment (Text.join '&' tokens) = all tokens ↔
        (tokens.flatMap String.toList).count '|' + 1 < tokens.length := by
      rw [ofSegment_eq_all_iff, and_iff_right hl, hl.count_lt_iff (by decide)]
    refine ⟨hread, fun hfew claims => ?_⟩
    rw [satisfies, hread.2 hfew, admits_all_iff]
  · have hl : IsListOf '|' tokens (Text.join '|' tokens) := ⟨htwo, hor, rfl⟩
    have hread : ofSegment (Text.join '|' tokens) = any tokens ↔
        (tokens.flatMap String.toList).count '&' + 1 < tokens.length := by
      rw [ofSegment_eq_any_iff, and_iff_right hl, hl.count_lt_iff (by decide)]
    refine ⟨hread, fun hfew claims => ?_⟩
    rw [satisfies, hread.2 hfew, admits_any_iff]

/-- Three tokens, one of them empty, may hold one `|` and are read back; two tokens may not. -/
theorem three_tokens_read_back :
    IsListOf '&' ["read|write", "", "audit"] "read|write&&audit" ∧
      ofSegment (Text.join '&' ["read|write", "", "audit"]) = all ["read|write", "", "audit"] ∧
      ¬ ofSegment (Text.join '&' ["read|write", "audit"]) = all ["read|write", "audit"] := by
  have hthree : ∀ token ∈ ["read|write", "", "audit"], '&' ∉ token.toList := by decide +kernel
  have htwo : ∀ token ∈ ["read|write", "audit"], '&' ∉ token.toList := by decide +kernel
  refine ⟨?_, ?_, ?_⟩
  · exact (ofSegment_faithful.1 "read|write&&audit").2.1 _ (by decide +kernel)
  · exact ((ofSegment_faithful.2 _ (by decide)).1 hthree).1.2 (by decide +kernel)
  · exact mt ((ofSegment_faithful.2 _ (by decide)).1 htwo).1.1 (by decide +kernel)

end Requirement

end

end Clearance
