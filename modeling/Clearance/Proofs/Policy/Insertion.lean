import Clearance.Proofs.Policy.Naming

/-!
# What expansion keeps

Expansion takes marks out of a segment and puts text into it, and that is all. A tier begins with
the role whose place it takes (`tier_eq_append`), so a replacement loses the mark behind the role
and nothing else (`Text.filter_sublist_replaceMarked`). It does not matter whether that role stood
in the segment or came in with an earlier tier, nor which marks and delimiters the names of the
roles hold. So nothing but marks gets lost on the way through both passes
(`filter_sublist_expandChars`), and the segment without its marks is a subsequence of its expansion
(`withoutMarks_sublist_expand`).
-/

namespace Clearance

open scoped List

/-- The character marks the role that stands before it. -/
def IsMark (c : Char) : Prop := c = '+' ∨ c = '-'

instance (c : Char) : Decidable (IsMark c) := inferInstanceAs (Decidable (_ ∨ _))

/-- The text with all marks left out. -/
def withoutMarks (s : String) : String := String.ofList (s.toList.filter fun c => ¬ IsMark c)

theorem toList_withoutMarks (s : String) :
    (withoutMarks s).toList = s.toList.filter fun c => ¬ IsMark c :=
  String.toList_ofList

section
variable {mark : Char} {p : Char → Bool}

/-- A replacement loses no character of a kind that the mark does not belong to, if the word is a
subsequence of what takes its place. -/
theorem Text.filter_sublist_replaceMarked {word inserted : List Char} (hmark : p mark = false)
    (hword : word <+ inserted) (s : List Char) :
    s.filter p <+ (replaceMarked word mark inserted s).filter p := by
  induction s using replaceMarked_induction word mark with
  | nil => exact .refl _
  | hit rest ih =>
    have hlost : ¬ p mark = true := by simp [hmark]
    rw [replaceMarked_append, List.filter_append, List.filter_append,
      List.filter_cons_of_neg hlost]
    exact (hword.filter p).append ih
  | miss c rest hmiss ih =>
    rw [replaceMarked_cons_of_not_isPrefix hmiss, List.filter_cons, List.filter_cons]
    by_cases hc : p c = true
    · rw [if_pos hc, if_pos hc]
      exact ih.cons_cons c
    · rw [if_neg hc, if_neg hc]
      exact ih

namespace Hierarchy

variable {order roles : List (List Char)}

/-- A pass loses no character of a kind that its mark does not belong to. -/
theorem filter_sublist_expandMark (hmark : p mark = false) (s : List Char) :
    s.filter p <+ (expandMark mark order s).filter p := by
  -- Role by role, what was kept so far is kept by one more replacement.
  refine List.foldlRecOn (motive := fun t : List Char => s.filter p <+ t.filter p) order _
    (.refl _) fun t hkept role hrole => ?_
  obtain ⟨more, htier, -⟩ := tier_eq_append hrole
  have hword : role <+ tier order role := htier ▸ List.sublist_append_left role more
  exact hkept.trans (Text.filter_sublist_replaceMarked hmark hword t)

/-- Expansion loses no character of a kind that neither mark belongs to. -/
theorem filter_sublist_expandChars (hplus : p '+' = false) (hminus : p '-' = false)
    (s : List Char) : s.filter p <+ (expandChars roles s).filter p :=
  (filter_sublist_expandMark hplus s).trans (filter_sublist_expandMark hminus _)

/-- **Expansion only takes out marks and puts in text.** Whatever the roles are named, a segment
without its marks is a subsequence of its expansion. So every other character stands in the
expansion at least as often as in the segment, the delimiters included. -/
theorem withoutMarks_sublist_expand (h : Hierarchy) (segment : String) :
    (withoutMarks segment).toList <+ (h.expand segment).toList ∧
      (∀ c, ¬ IsMark c → segment.toList.count c ≤ (h.expand segment).toList.count c) ∧
      segment.toList.count '&' ≤ (h.expand segment).toList.count '&' ∧
      segment.toList.count '|' ≤ (h.expand segment).toList.count '|' := by
  have hkept : (withoutMarks segment).toList <+ (h.expand segment).toList := by
    rw [toList_withoutMarks, toList_expand]
    exact (filter_sublist_expandChars (by decide) (by decide) _).trans List.filter_sublist
  have hcount : ∀ c, ¬ IsMark c →
      segment.toList.count c ≤ (h.expand segment).toList.count c := by
    intro c hc
    calc segment.toList.count c
        = (withoutMarks segment).toList.count c := by
          rw [toList_withoutMarks, List.count_filter (by simpa using hc)]
      _ ≤ (h.expand segment).toList.count c := hkept.count_le c
  exact ⟨hkept, hcount, hcount '&' (by decide), hcount '|' (by decide)⟩

/-- A name that ends with a mark, a name with a delimiter, an empty name and a name declared twice:
the second mark behind `lead` is replaced together with a name that came in for the first, and so is
the mark that another inserted name ends with. All of `lead&x|` is still there. -/
theorem expand_lead_keeps_text :
    let h : Hierarchy := ⟨["lead", "lead-", "r&d", "", "lead"]⟩
    let segment := "lead+-&x|-"
    let expanded := "lead||r&d|lead|lead|lead|r&d||lead|lead|lead|lead|r&d||lead&x||lead"
    h.expand segment = expanded ∧ "lead&x|".toList <+ expanded.toList ∧
      ¬ IsMark 'x' ∧ segment.toList.count 'x' ≤ expanded.toList.count 'x' := by
  intro h segment expanded
  have hexpand : h.expand segment = expanded := by decide +kernel
  have hwithout : withoutMarks segment = "lead&x|" := by decide +kernel
  have hx : ¬ IsMark 'x' := by decide
  obtain ⟨hkept, hcount, -⟩ := withoutMarks_sublist_expand h segment
  rw [hexpand] at hkept hcount
  rw [hwithout] at hkept
  exact ⟨hexpand, hkept, hx, hcount 'x' hx⟩

end Hierarchy

end

end Clearance
