import Clearance.Proofs.Policy.Expansion

/-!
# Mirrored hierarchies

The two marks mirror each other: what `+` stands for in a hierarchy is what `-` stands for in the
reversed one. A pass for one mark goes replacement by replacement like the pass for the other mark
through the text with its marks exchanged (`expandMark_exchanged`), also where an inserted name
meets a mark that follows and is replaced in turn. So in segments without `-` the marks of an
expansion can be exchanged before or after it, if the hierarchy is reversed (`expand_mirrored`).
-/

namespace Clearance.Hierarchy

/-! ## Exchanged marks -/

/-- The other mark for a mark, and every other character itself. -/
def exchanged (c : Char) : Char := if c = '+' then '-' else if c = '-' then '+' else c

/-- The text with its marks exchanged. -/
def exchangeMarks (s : String) : String := s.map exchanged

/-- The roles declared in the opposite order. -/
def reversed (h : Hierarchy) : Hierarchy := ⟨h.roles.reverse⟩

theorem exchanged_of_ne {c : Char} (hp : c ≠ '+') (hm : c ≠ '-') : exchanged c = c := by
  rw [exchanged, if_neg hp, if_neg hm]

theorem exchanged_exchanged (c : Char) : exchanged (exchanged c) = c := by
  by_cases hp : c = '+'
  · rw [hp]
    rfl
  · by_cases hm : c = '-'
    · rw [hm]
      rfl
    · rw [exchanged_of_ne hp hm, exchanged_of_ne hp hm]

theorem exchanged_injective : Function.Injective exchanged := by
  intro a b hab
  rw [← exchanged_exchanged a, hab, exchanged_exchanged]

theorem map_exchanged_of_notMem {s : List Char} (hp : '+' ∉ s) (hm : '-' ∉ s) :
    s.map exchanged = s := by
  have hsame : ∀ c ∈ s, exchanged c = id c := fun c hc =>
    exchanged_of_ne (fun e => hp (e ▸ hc)) (fun e => hm (e ▸ hc))
  rw [List.map_congr_left hsame, List.map_id]

/-- In a text without `-` the marks are exchanged by writing `-` for `+`. -/
theorem exchangeMarks_of_notMem {s : String} (hm : '-' ∉ s.toList) :
    exchangeMarks s = s.map fun c => if c = '+' then '-' else c := by
  apply String.toList_inj.1
  rw [exchangeMarks, String.toList_map, String.toList_map]
  refine List.map_congr_left fun c hc => ?_
  have hne : c ≠ '-' := fun e => hm (e ▸ hc)
  rw [exchanged, if_neg hne]

/-! ## Passes -/

section
variable {mark : Char} {order roles : List (List Char)} {segment : List Char}

/-- A pass brings in no character besides `|` and those of the roles. -/
theorem notMem_expandMark {c : Char} (hc : c ≠ '|') (ho : ∀ r ∈ order, c ∉ r)
    (hs : c ∉ segment) : c ∉ expandMark mark order segment := by
  refine List.foldlRecOn (motive := fun s => c ∉ s) order _ hs fun s hs role _ => ?_
  exact Text.notMem_replaceMarked (notMem_tier hc ho) hs

/-- **A pass is mirrored by the pass for the other mark** in the same order. -/
theorem expandMark_exchanged (hp : ∀ r ∈ order, '+' ∉ r) (hm : ∀ r ∈ order, '-' ∉ r) :
    (expandMark mark order segment).map exchanged =
      expandMark (exchanged mark) order (segment.map exchanged) := by
  have hgroup : ∀ role, (tier order role).map exchanged = tier order role := fun role =>
    map_exchanged_of_notMem (notMem_tier (by decide) hp) (notMem_tier (by decide) hm)
  unfold expandMark
  generalize tier order = group at hgroup
  induction order generalizing segment with
  | nil => rfl
  | cons r order ih =>
    have hr : r.map exchanged = r :=
      map_exchanged_of_notMem (hp r List.mem_cons_self) (hm r List.mem_cons_self)
    rw [List.foldl_cons, List.foldl_cons, ih (fun q hq => hp q (List.mem_cons_of_mem _ hq))
      (fun q hq => hm q (List.mem_cons_of_mem _ hq)),
      Text.replaceMarked_map exchanged_injective, hr, hgroup]

/-- Without `-` only the first pass counts. -/
theorem expandChars_of_minus_notMem (hr : ∀ r ∈ roles, '-' ∉ r) (hs : '-' ∉ segment) :
    expandChars roles segment = expandMark '+' roles.reverse segment := by
  have hrev : ∀ r ∈ roles.reverse, '-' ∉ r := fun r hmem => hr r (List.mem_reverse.1 hmem)
  rw [expandChars, expandMark_of_notMem (notMem_expandMark (by decide) hrev hs)]

/-- Without `+` only the second pass counts. -/
theorem expandChars_of_plus_notMem (hs : '+' ∉ segment) :
    expandChars roles segment = expandMark '-' roles segment := by
  rw [expandChars, expandMark_of_notMem hs]

end

/-! ## Mirror images -/

/-- **The marks mirror each other.** Among roles without marks, whatever else their names hold and
however often they are declared, the expansion of a segment without `-` becomes, when its marks are
exchanged, the expansion of the segment with `-` for `+` in the reversed hierarchy. -/
theorem expand_mirrored {h : Hierarchy} (hp : ∀ r ∈ h.roles, '+' ∉ r.toList)
    (hm : ∀ r ∈ h.roles, '-' ∉ r.toList) {segment : String} (hs : '-' ∉ segment.toList) :
    exchangeMarks (h.expand segment) =
      h.reversed.expand (segment.map fun c => if c = '+' then '-' else c) := by
  have hp' : ∀ r ∈ h.roles.map String.toList, '+' ∉ r := List.forall_mem_map.2 hp
  have hm' : ∀ r ∈ h.roles.map String.toList, '-' ∉ r := List.forall_mem_map.2 hm
  have hplus : '+' ∉ segment.toList.map exchanged := by
    intro hmem
    obtain ⟨c, hc, he⟩ := List.mem_map.1 hmem
    have hminus : c = '-' := by rw [← exchanged_exchanged c, he]; rfl
    exact hs (hminus ▸ hc)
  rw [← exchangeMarks_of_notMem hs]
  apply String.toList_inj.1
  calc (exchangeMarks (h.expand segment)).toList
      = (expandChars (h.roles.map String.toList) segment.toList).map exchanged := by
        rw [exchangeMarks, String.toList_map, toList_expand]
    _ = (expandMark '+' (h.roles.map String.toList).reverse segment.toList).map exchanged := by
        rw [expandChars_of_minus_notMem hm' hs]
    _ = expandMark '-' (h.roles.map String.toList).reverse (segment.toList.map exchanged) :=
        expandMark_exchanged (fun r hr => hp' r (List.mem_reverse.1 hr))
          fun r hr => hm' r (List.mem_reverse.1 hr)
    _ = expandChars (h.roles.map String.toList).reverse (segment.toList.map exchanged) :=
        (expandChars_of_plus_notMem hplus).symm
    _ = (h.reversed.expand (exchangeMarks segment)).toList := by
        rw [toList_expand, reversed, List.map_reverse, exchangeMarks, String.toList_map]

/-- A name that ends with another, a name declared twice, marks behind marks and a mark inside a
word: the names inserted for `lead+` are replaced in turn as those for `lead-` are. -/
theorem expand_leads_mirrored :
    expand ⟨["member", "lead", "team lead", "lead"]⟩ "team lead+++&lead+x+" =
        "team lead|team lead|lead|member+&lead|team lead|lead|memberx+" ∧
      expand ⟨["lead", "team lead", "lead", "member"]⟩ "team lead---&lead-x-" =
        "team lead|team lead|lead|member-&lead|team lead|lead|memberx-" := by
  have hplus : ∀ r ∈ ["member", "lead", "team lead", "lead"], '+' ∉ r.toList := by decide +kernel
  have hminus : ∀ r ∈ ["member", "lead", "team lead", "lead"], '-' ∉ r.toList := by decide +kernel
  have hsegment : '-' ∉ "team lead+++&lead+x+".toList := by decide +kernel
  have hexpand : expand ⟨["member", "lead", "team lead", "lead"]⟩ "team lead+++&lead+x+" =
      "team lead|team lead|lead|member+&lead|team lead|lead|memberx+" := by decide +kernel
  have hmirror := expand_mirrored (h := ⟨["member", "lead", "team lead", "lead"]⟩) hplus hminus
    hsegment
  refine ⟨hexpand, ?_⟩
  calc expand ⟨["lead", "team lead", "lead", "member"]⟩ "team lead---&lead-x-"
      = (reversed ⟨["member", "lead", "team lead", "lead"]⟩).expand
          ("team lead+++&lead+x+".map fun c => if c = '+' then '-' else c) := by decide +kernel
    _ = exchangeMarks "team lead|team lead|lead|member+&lead|team lead|lead|memberx+" := by
        rw [← hmirror, hexpand]
    _ = "team lead|team lead|lead|member-&lead|team lead|lead|memberx-" := by decide +kernel

end Clearance.Hierarchy
