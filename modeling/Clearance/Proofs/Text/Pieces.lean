import Clearance.Text.Split

/-!
# Pieces of texts

How many pieces a text has that is cut at a delimiter and what stands in them (`length_split`,
`exists_mem_split_iff`), what stands in a text that was joined from pieces, and how a text falls
apart at one delimiter when another was put into it (`splitOn_append_cons_of_ne`). Groups of names
that are joined by one delimiter and then by another do not come back at the first: the last name
of a group is glued to the first name of the next. `unglued` lists the names that do come back, and
`filter_splitOn_grouped` says that they are the pieces without the second delimiter.
-/

namespace Clearance.Text

/-! ## Cut texts -/

section
variable {c d : Char}

/-- There is one piece more than there are cuts. -/
theorem length_splitOn (d : Char) (l : List Char) : (l.splitOn d).length = l.count d + 1 := by
  induction l with
  | nil => rw [List.splitOn_nil, List.length_singleton, List.count_nil]
  | cons e l ih =>
    rw [List.splitOn_cons_eq_if_modifyHead, List.count_cons]
    by_cases he : e = d
    · rw [if_pos (beq_iff_eq.2 he), if_pos (beq_iff_eq.2 he), List.length_cons, ih]
    · rw [if_neg (mt beq_iff_eq.1 he), if_neg (mt beq_iff_eq.1 he), List.length_modifyHead, ih]

/-- The pieces hold what the text holds, but for the delimiter. -/
theorem exists_mem_splitOn_iff {l : List Char} :
    (∃ piece ∈ l.splitOn d, c ∈ piece) ↔ c ∈ l ∧ c ≠ d := by
  induction l with
  | nil => simp
  | cons e l ih =>
    rw [List.splitOn_cons_eq_if_modifyHead]
    by_cases he : e = d
    · rw [if_pos (beq_iff_eq.2 he)]
      simp only [List.mem_cons, exists_eq_or_imp, List.not_mem_nil, false_or, ih]
      grind
    · rw [if_neg (mt beq_iff_eq.1 he)]
      obtain ⟨first, rest, hl⟩ := List.exists_cons_of_ne_nil (List.splitOn_ne_nil d l)
      rw [hl] at ih ⊢
      simp only [List.modifyHead_cons, List.mem_cons, exists_eq_or_imp] at ih ⊢
      grind

variable {s p : String}

theorem length_split (d : Char) (s : String) : (split d s).length = s.toList.count d + 1 := by
  rw [split, List.length_map, length_splitOn]

theorem exists_mem_split_iff : (∃ p ∈ split d s, c ∈ p.toList) ↔ c ∈ s.toList ∧ c ≠ d := by
  rw [← exists_mem_splitOn_iff, ← map_toList_split]
  constructor
  · rintro ⟨p, hp, hc⟩
    exact ⟨p.toList, List.mem_map_of_mem hp, hc⟩
  · rintro ⟨piece, hpiece, hc⟩
    obtain ⟨p, hp, rfl⟩ := List.mem_map.1 hpiece
    exact ⟨p, hp, hc⟩

theorem notMem_of_mem_split (hp : p ∈ split d s) : d ∉ p.toList := by
  intro hd
  exact (exists_mem_split_iff.1 ⟨p, hp, hd⟩).2 rfl

/-- A text without the delimiter is its only piece. -/
theorem split_of_notMem (h : d ∉ s.toList) : split d s = [s] := by
  rw [split, List.splitOn_eq_singleton h, List.map_singleton, String.ofList_toList]

end

/-! ## Joined texts -/

/-- What stands in a joined text stands in a piece or is the delimiter. -/
theorem mem_intercalate {c d : Char} {pieces : List (List Char)}
    (h : c ∈ [d].intercalate pieces) : c = d ∨ ∃ p ∈ pieces, c ∈ p := by
  induction pieces with
  | nil => simp at h
  | cons p rest ih =>
    cases rest with
    | nil => exact .inr ⟨p, List.mem_cons_self, by simpa using h⟩
    | cons q rest =>
      rw [List.intercalate_cons_cons, List.append_assoc, List.mem_append] at h
      rcases h with hp | h
      · exact .inr ⟨p, List.mem_cons_self, hp⟩
      · rcases List.mem_cons.1 h with rfl | h
        · exact .inl rfl
        · rcases ih h with rfl | ⟨x, hx, hc⟩
          · exact .inl rfl
          · exact .inr ⟨x, List.mem_cons_of_mem _ hx, hc⟩

/-- A character that stands in no piece and is no delimiter does not stand in the joined text. -/
theorem notMem_join {c d : Char} {pieces : List String} (hne : c ≠ d)
    (hfree : ∀ p ∈ pieces, c ∉ p.toList) : c ∉ (join d pieces).toList := by
  rw [toList_join]
  intro hc
  rcases mem_intercalate hc with rfl | ⟨piece, hpiece, hmem⟩
  · exact hne rfl
  · obtain ⟨p, hp, rfl⟩ := List.mem_map.1 hpiece
    exact hfree p hp hmem

/-- The delimiter apart, a joined text holds every character as often as its pieces do. -/
theorem count_join_of_ne {c d : Char} (hne : c ≠ d) (pieces : List String) :
    (join d pieces).toList.count c = (pieces.flatMap String.toList).count c := by
  rw [toList_join, List.flatMap_def]
  generalize pieces.map String.toList = parts
  induction parts with
  | nil => rfl
  | cons p rest ih =>
    cases rest with
    | nil => simp
    | cons q rest =>
      rw [List.intercalate_cons_cons, List.append_assoc, List.count_append, List.singleton_append,
        List.count_cons_of_ne hne.symm, ih, ← List.count_append, ← List.flatten_cons]

/-- Two joined texts with the delimiter between them are joined in one. -/
theorem intercalate_append_of_ne_nil {d : Char} {a b : List (List Char)} (ha : a ≠ [])
    (hb : b ≠ []) : [d].intercalate (a ++ b) = [d].intercalate a ++ d :: [d].intercalate b := by
  induction a with
  | nil => exact absurd rfl ha
  | cons x a ih =>
    cases a with
    | nil => rw [List.singleton_append, List.intercalate_cons_of_ne_nil hb]; simp
    | cons y a =>
      rw [List.cons_append, List.intercalate_cons_of_ne_nil (by simp), ih (by simp),
        List.intercalate_cons_cons]
      simp

/-- Groups of pieces that are joined within and between by one delimiter are a list of all their
pieces. -/
theorem join_flatten {d : Char} {groups : List (List String)} (hne : ∀ g ∈ groups, g ≠ []) :
    join d groups.flatten = join d (groups.map (join d)) := by
  apply String.toList_inj.1
  rw [toList_join, toList_join, List.map_map]
  have hjoin : String.toList ∘ join d = fun g => [d].intercalate (g.map String.toList) :=
    funext (toList_join d)
  rw [hjoin]
  induction groups with
  | nil => rfl
  | cons g rest ih =>
    cases rest with
    | nil => simp
    | cons g' rest =>
      have hflat : (g' :: rest).flatten ≠ [] := by
        have := hne g' (by simp)
        simp [this]
      have hg := hne g List.mem_cons_self
      rw [List.flatten_cons, List.map_append, intercalate_append_of_ne_nil (by simpa using hg)
        (by simpa using hflat), ih fun x hx => hne x (List.mem_cons_of_mem _ hx)]
      simp only [List.map_cons, List.intercalate_cons_cons, List.append_assoc,
        List.singleton_append]

/-- A character that is no delimiter joins the last piece before it with the first piece after
it. -/
theorem splitOn_append_cons_of_ne {c d : Char} (hne : c ≠ d) (a b : List Char) :
    ∃ l x y r, a.splitOn d = l ++ [x] ∧ b.splitOn d = y :: r ∧
      (a ++ c :: b).splitOn d = l ++ (x ++ c :: y) :: r := by
  induction a with
  | nil =>
    obtain ⟨y, r, hb⟩ := List.exists_cons_of_ne_nil (List.splitOn_ne_nil d b)
    refine ⟨[], [], y, r, rfl, hb, ?_⟩
    rw [List.nil_append, List.splitOn_cons_eq_if_modifyHead, if_neg (by simpa using hne), hb]
    rfl
  | cons e a ih =>
    obtain ⟨l, x, y, r, ha, hb, hab⟩ := ih
    by_cases he : e = d
    · subst he
      refine ⟨[] :: l, x, y, r, ?_, hb, ?_⟩
      · rw [List.splitOn_cons_eq_if_modifyHead, if_pos (by simp), ha, List.cons_append]
      · rw [List.cons_append, List.splitOn_cons_eq_if_modifyHead, if_pos (by simp), hab,
          List.cons_append]
    · have hskip : ∀ s : List Char, (e :: s).splitOn d = (s.splitOn d).modifyHead (e :: ·) := by
        intro s
        rw [List.splitOn_cons_eq_if_modifyHead, if_neg (by simpa using he)]
      rw [List.cons_append, hskip, hskip, ha, hab]
      cases l with
      | nil => exact ⟨[], e :: x, y, r, rfl, hb, rfl⟩
      | cons z l => exact ⟨(e :: z) :: l, x, y, r, rfl, hb, rfl⟩

/-! ## Groups of names -/

/-- The names that are glued to no name of another group when a first group and further groups are
written behind one another. -/
def unglued {α : Type _} : List α → List (List α) → List α
  | group, [] => group
  | group, next :: rest => group.dropLast ++ unglued next.tail rest

theorem map_unglued {α β : Type _} (f : α → β) (group : List α) (rest : List (List α)) :
    (unglued group rest).map f = unglued (group.map f) (rest.map (List.map f)) := by
  induction rest generalizing group with
  | nil => rfl
  | cons next rest ih =>
    rw [unglued, List.map_append, ih, List.map_tail, List.map_dropLast]
    rfl

/-- Groups of names in one text, `d` between the names of a group and `c` between the groups. -/
def grouped (c d : Char) (groups : List (List (List Char))) : List Char :=
  [c].intercalate (groups.map [d].intercalate)

section
variable {c d : Char} {group : List (List Char)} {rest : List (List (List Char))}

/-- The pieces of two or more groups at `d`: those of the first group but its last, a piece that
runs into the second group, and those of the other groups but their first. -/
theorem splitOn_grouped_cons_cons (hne : c ≠ d) (next : List (List Char))
    (rest : List (List (List Char))) (hg : group ≠ []) (hd : ∀ n ∈ group, d ∉ n) :
    ∃ glued, c ∈ glued ∧ (grouped c d (group :: next :: rest)).splitOn d =
      group.dropLast ++ glued :: ((grouped c d (next :: rest)).splitOn d).tail := by
  obtain ⟨l, x, y, r, hl, hr, h⟩ := splitOn_append_cons_of_ne hne ([d].intercalate group)
    (grouped c d (next :: rest))
  rw [List.splitOn_intercalate d hd hg] at hl
  refine ⟨x ++ c :: y, by simp, ?_⟩
  have hcut : grouped c d (group :: next :: rest) =
      [d].intercalate group ++ c :: grouped c d (next :: rest) := by
    simp [grouped, List.intercalate_cons_cons]
  rw [hcut, h, hl, hr, List.dropLast_concat, List.tail_cons]

/-- Groups fall into one piece more than they have names after the first names. -/
theorem length_splitOn_grouped (hne : c ≠ d) (hg : ∀ g ∈ group :: rest, g ≠ [])
    (hd : ∀ g ∈ group :: rest, ∀ n ∈ g, d ∉ n) :
    ((grouped c d (group :: rest)).splitOn d).length =
      ((group :: rest).flatMap List.tail).length + 1 := by
  induction rest generalizing group with
  | nil =>
    have hlen := List.length_pos_iff.2 (hg group List.mem_cons_self)
    have hone : grouped c d [group] = [d].intercalate group := by simp [grouped]
    rw [hone, List.splitOn_intercalate d (hd group List.mem_cons_self)
      (hg group List.mem_cons_self), List.flatMap_singleton, List.length_tail]
    omega
  | cons next rest ih =>
    have hlen := List.length_pos_iff.2 (hg group List.mem_cons_self)
    obtain ⟨glued, -, h⟩ := splitOn_grouped_cons_cons hne next rest
      (hg group List.mem_cons_self) (hd group List.mem_cons_self)
    have hrest := ih (fun g h => hg g (List.mem_cons_of_mem _ h))
      (fun g h => hd g (List.mem_cons_of_mem _ h))
    have hflat : ((group :: next :: rest).flatMap List.tail).length =
        (group.length - 1) + ((next :: rest).flatMap List.tail).length := by
      rw [List.flatMap_cons, List.length_append, List.length_tail]
    rw [h, List.length_append, List.length_cons, List.length_tail, hrest, List.length_dropLast,
      hflat]
    omega

/-- The pieces of groups at `d` that hold no `c` are the names that are glued to no other, and
this is so without the first piece as well. -/
theorem filter_splitOn_grouped (hne : c ≠ d) (hg : ∀ g ∈ group :: rest, g ≠ [])
    (hd : ∀ g ∈ group :: rest, ∀ n ∈ g, d ∉ n) (hc : ∀ g ∈ group :: rest, ∀ n ∈ g, c ∉ n) :
    ((grouped c d (group :: rest)).splitOn d).filter (c ∉ ·) = unglued group rest ∧
      ((grouped c d (group :: rest)).splitOn d).tail.filter (c ∉ ·) = unglued group.tail rest := by
  have hkeep : ∀ l : List (List Char), (∀ n ∈ l, c ∉ n) → l.filter (c ∉ ·) = l :=
    fun l h => List.filter_eq_self.2 fun n hn => by simpa using h n hn
  have hgc : ∀ n ∈ group, c ∉ n := hc group List.mem_cons_self
  induction rest generalizing group with
  | nil =>
    have hone : grouped c d [group] = [d].intercalate group := by simp [grouped]
    rw [hone, List.splitOn_intercalate d (hd group List.mem_cons_self)
      (hg group List.mem_cons_self)]
    exact ⟨hkeep _ hgc, hkeep _ fun n hn => hgc n (List.mem_of_mem_tail hn)⟩
  | cons next rest ih =>
    obtain ⟨glued, hmem, h⟩ := splitOn_grouped_cons_cons hne next rest
      (hg group List.mem_cons_self) (hd group List.mem_cons_self)
    obtain ⟨-, htail⟩ := ih (fun g h => hg g (List.mem_cons_of_mem _ h))
      (fun g h => hd g (List.mem_cons_of_mem _ h)) (fun g h => hc g (List.mem_cons_of_mem _ h))
      (hc next (by simp))
    have hdrop : (glued :: ((grouped c d (next :: rest)).splitOn d).tail).filter (c ∉ ·) =
        unglued next.tail rest := by
      rw [List.filter_cons_of_neg (by simpa using hmem), htail]
    rw [h]
    constructor
    · rw [List.filter_append, hdrop, hkeep _ fun n hn => hgc n (List.dropLast_subset _ hn)]
      rfl
    · cases group with
      | nil => exact absurd rfl (hg [] List.mem_cons_self)
      | cons a group =>
        cases group with
        | nil => simpa [unglued] using htail
        | cons b group =>
          rw [List.dropLast_cons_of_ne_nil (by simp), List.cons_append, List.tail_cons,
            List.filter_append, hdrop, hkeep _ fun n hn => hgc n
              (List.mem_cons_of_mem _ (List.dropLast_subset _ hn))]
          rfl

end

end Clearance.Text
