import Clearance.Policy.Evaluate
import Clearance.Proofs.Text.Pieces
import Mathlib.Data.List.Basic

/-!
# Canonical policy texts

A condition is written with its three segments between colons (`Condition.canonical`). No segment
holds a colon, and so this text is read back to the same segments by lenient and by strict parsing
(`parse_canonical`), whatever was missing from the text that was parsed or stood behind its third
segment. Strict parsing accepts the texts that are already written in this way, those with two
colons, and says of any other how many segments it has (`parseStrict?_eq_ite`).
-/

namespace Clearance

namespace Condition

variable {policy : String} {c : Condition}

/-! ## Segments -/

/-- A segment holds no colon, and neither does the wildcard for a missing one. -/
theorem colon_notMem_segmentAt (policy : String) (position : Nat) :
    ':' ∉ (segmentAt policy position).toList := by
  rw [segmentAt, List.getD_eq_getElem?_getD]
  cases hsegment : (segmentsOf policy)[position]? with
  | none => decide
  | some segment => exact Text.notMem_of_mem_split (List.mem_of_getElem? hsegment)

theorem forall_mem_segments_iff {p : String → Prop} :
    (∀ segment ∈ c.segments, p segment) ↔ p c.departments ∧ p c.roles ∧ p c.scopes := by
  simp [segments]

theorem colon_notMem_of_mem_segments (policy : String) :
    ∀ segment ∈ (parse policy).segments, ':' ∉ segment.toList :=
  forall_mem_segments_iff.2 ⟨colon_notMem_segmentAt policy 0, colon_notMem_segmentAt policy 1,
    colon_notMem_segmentAt policy 2⟩

/-- A text of three segments has no others. -/
theorem segments_parse (hcount : policy.toList.count ':' = 2) :
    (parse policy).segments = segmentsOf policy := by
  have hlength : (segmentsOf policy).length = 3 :=
    (Text.length_split ':' policy).trans (congrArg (· + 1) hcount)
  obtain ⟨departments, roles, scopes, hthree⟩ := List.length_eq_three.1 hlength
  simp only [segments, parse, segmentAt, hthree]
  rfl

/-! ## Canonical texts -/

/-- The canonical text of segments without colons has these segments. -/
theorem segmentsOf_canonical (hfree : ∀ segment ∈ c.segments, ':' ∉ segment.toList) :
    segmentsOf c.canonical = c.segments :=
  Text.split_join ':' hfree (List.cons_ne_nil _ _)

/-- **Reading back.** The canonical text of segments without colons is parsed to these segments. -/
theorem parse_canonical (hfree : ∀ segment ∈ c.segments, ':' ∉ segment.toList) :
    parse c.canonical = { c with raw := c.canonical } := by
  simp only [parse, segmentAt, segmentsOf_canonical hfree]
  rfl

/-- A text of three segments is its own canonical text. -/
theorem canonical_parse (hcount : policy.toList.count ':' = 2) :
    (parse policy).canonical = policy := by
  rw [canonical, segments_parse hcount, segmentsOf, Text.join_split]

/-- Two colons stand in the canonical text of segments without any. -/
theorem count_colon_canonical (hfree : ∀ segment ∈ c.segments, ':' ∉ segment.toList) :
    c.canonical.toList.count ':' = 2 := by
  have hlength := Text.length_split ':' c.canonical
  rw [← segmentsOf, segmentsOf_canonical hfree] at hlength
  exact (Nat.succ.inj hlength).symm

/-! ## Strict parsing -/

/-- Strict parsing of a text with two colons is lenient parsing, and any other text is refused with
the number of its segments, one more than its colons. -/
theorem parseStrict?_eq_ite (policy : String) :
    parseStrict? policy =
      if policy.toList.count ':' = 2 then .ok (parse policy)
      else .error (.segmentCount (policy.toList.count ':' + 1) policy) := by
  have hlength : (segmentsOf policy).length = policy.toList.count ':' + 1 :=
    Text.length_split ':' policy
  simp only [parseStrict?, hlength, Nat.reduceEqDiff]

end Condition

/-- **Two ways of parsing.** The segments that lenient parsing makes of a policy text hold no colon.
The text that they make is parsed strictly to these segments, is its own canonical text, and decides
as the policy does for all claim sets and hierarchies. Strict parsing of the policy itself succeeds
exactly if it has two colons. Then the policy is canonical and the condition is that of lenient
parsing; otherwise the fault tells how many segments there are, one more than colons. -/
theorem strict_and_lenient_agree (policy : String) :
    (∀ segment ∈ (Condition.parse policy).segments, ':' ∉ segment.toList) ∧
      let parsed := Condition.parse policy
      let canonical := parsed.canonical
      Condition.parseStrict? canonical = .ok { parsed with raw := canonical } ∧
        (Condition.parse canonical).canonical = canonical ∧
        (∀ claims h, evaluate canonical claims h = evaluate policy claims h) ∧
        ((∃ c, Condition.parseStrict? policy = .ok c) ↔ policy.toList.count ':' = 2) ∧
        (policy.toList.count ':' = 2 →
          canonical = policy ∧ Condition.parseStrict? policy = .ok parsed) ∧
        (policy.toList.count ':' ≠ 2 →
          Condition.parseStrict? policy = .error (.invalidCondition
            ("expected 3 ':'-separated segments, found " ++
              toString (policy.toList.count ':' + 1) ++ " in '" ++ policy ++ "'"))) := by
  have hfree : ∀ segment ∈ (Condition.parse policy).segments, ':' ∉ segment.toList :=
    Condition.colon_notMem_of_mem_segments policy
  refine ⟨hfree, ?_⟩
  intro parsed canonical
  have hback : Condition.parse canonical = { parsed with raw := canonical } :=
    Condition.parse_canonical hfree
  have hcount : canonical.toList.count ':' = 2 := Condition.count_colon_canonical hfree
  refine ⟨?_, Condition.canonical_parse hcount, fun claims h => ?_, ⟨?_, fun htwo => ?_⟩,
    fun htwo => ⟨Condition.canonical_parse htwo, ?_⟩, fun hother => ?_⟩
  · rw [Condition.parseStrict?_eq_ite, if_pos hcount, hback]
  · -- What is decided does not depend on the text that was parsed.
    rw [evaluate, evaluate, hback]
    rfl
  · rintro ⟨c, hc⟩
    by_contra hother
    rw [Condition.parseStrict?_eq_ite, if_neg hother] at hc
    cases hc
  · exact ⟨parsed, by rw [Condition.parseStrict?_eq_ite, if_pos htwo]⟩
  · rw [Condition.parseStrict?_eq_ite, if_pos htwo]
  · rw [Condition.parseStrict?_eq_ite, if_neg hother]
    rfl

end Clearance
