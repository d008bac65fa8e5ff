import Clearance.Text.Blank
import Mathlib.Data.List.Basic
import Mathlib.Data.List.TakeWhile

/-!
# Trimmed texts

A text without blanks at its ends is what trimming leaves of it in any padding (`trim_append`), and
every text is what trimming leaves of it in some padding (`exists_trim`). The first word of a text
ends at its first blank, and what stands behind it in a trimmed text is nothing or trimmed again,
but for the blanks between (`IsTrimmed.afterWord_cases`).
-/

namespace Clearance.Text

/-- Nothing but blanks. -/
def IsBlankRun (s : List Char) : Prop := ∀ c ∈ s, isBlank c = true

/-- There is a character, and neither the first nor the last one is a blank. -/
structure IsTrimmed (s : List Char) : Prop where
  ne_nil : s ≠ []
  first : ∀ c ∈ s.head?, isBlank c = false
  last : ∀ c ∈ s.getLast?, isBlank c = false

instance : DecidablePred IsBlankRun := fun s =>
  decidable_of_iff (s.all isBlank = true) List.all_eq_true

/-- What stands before the first blank. -/
def firstWord (s : List Char) : List Char := s.takeWhile (!isBlank ·)

/-- What stands from the first blank on. -/
def afterWord (s : List Char) : List Char := s.dropWhile (!isBlank ·)

section
variable {before s after : List Char}

theorem isBlankRun_nil : IsBlankRun [] := fun _ hc => absurd hc List.not_mem_nil

theorem IsBlankRun.append (hs : IsBlankRun s) (ha : IsBlankRun after) : IsBlankRun (s ++ after) :=
  List.forall_mem_append.2 ⟨hs, ha⟩

theorem IsBlankRun.reverse (hs : IsBlankRun s) : IsBlankRun s.reverse :=
  fun c hc => hs c (List.mem_reverse.1 hc)

/-! ## One end -/

/-- Dropping stops at a character that is not to be dropped. -/
theorem eq_false_of_head?_dropWhile {p : Char → Bool} {c : Char}
    (h : (s.dropWhile p).head? = some c) : p c = false := by
  have hstop := List.head?_dropWhile_not p s
  rwa [h] at hstop

theorem trimStart_append (hb : IsBlankRun before) (s : List Char) :
    trimStart (before ++ s) = trimStart s :=
  List.dropWhile_append_of_pos hb

theorem trimStart_of_first (hs : ∀ c ∈ s.head?, isBlank c = false) : trimStart s = s := by
  cases s with
  | nil => rfl
  | cons c s =>
    have hc : isBlank c = false := hs c rfl
    rw [trimStart, List.dropWhile_cons, hc]
    rfl

/-- Trimming takes away blanks up to the first character that is none. -/
theorem exists_trimStart (s : List Char) :
    ∃ before, IsBlankRun before ∧ s = before ++ trimStart s ∧
      ∀ c ∈ (trimStart s).head?, isBlank c = false := by
  refine ⟨s.takeWhile isBlank, fun c hc => List.mem_takeWhile_imp hc,
    List.takeWhile_append_dropWhile.symm, fun c hc => ?_⟩
  exact eq_false_of_head?_dropWhile hc

theorem trimEnd_append (ha : IsBlankRun after) (s : List Char) :
    trimEnd (s ++ after) = trimEnd s := by
  rw [trimEnd, List.reverse_append, trimStart_append ha.reverse, trimEnd]

theorem trimEnd_of_last (hs : ∀ c ∈ s.getLast?, isBlank c = false) : trimEnd s = s := by
  rw [trimEnd, trimStart_of_first (by rwa [List.head?_reverse]), List.reverse_reverse]

theorem exists_trimEnd (s : List Char) :
    ∃ after, IsBlankRun after ∧ s = trimEnd s ++ after ∧
      ∀ c ∈ (trimEnd s).getLast?, isBlank c = false := by
  obtain ⟨before, hb, hcut, hfirst⟩ := exists_trimStart s.reverse
  refine ⟨before.reverse, hb.reverse, ?_, ?_⟩
  · rw [trimEnd, ← List.reverse_append, ← hcut, List.reverse_reverse]
  · rwa [trimEnd, List.getLast?_reverse]

/-! ## Both ends -/

/-- A trimmed text is what trimming leaves of it in any padding. -/
theorem trim_append (hb : IsBlankRun before) (hs : IsTrimmed s) (ha : IsBlankRun after) :
    trim (before ++ s ++ after) = s := by
  have hfirst : ∀ c ∈ (s ++ after).head?, isBlank c = false := by
    rw [List.head?_append_of_ne_nil _ hs.ne_nil]
    exact hs.first
  rw [trim, List.append_assoc, trimStart_append hb, trimStart_of_first hfirst, trimEnd_append ha,
    trimEnd_of_last hs.last]

theorem trim_of_isTrimmed (hs : IsTrimmed s) : trim s = s := by
  simpa using trim_append isBlankRun_nil hs isBlankRun_nil

theorem trim_of_isBlankRun (hs : IsBlankRun s) : trim s = [] := by
  have hstart : trimStart s = [] := List.dropWhile_eq_nil_iff.2 hs
  rw [trim, hstart]
  rfl

/-- Every text is padding around what trimming leaves, which is trimmed or nothing. -/
theorem exists_trim (s : List Char) :
    ∃ before after, IsBlankRun before ∧ IsBlankRun after ∧ s = before ++ trim s ++ after ∧
      (trim s ≠ [] → IsTrimmed (trim s)) := by
  obtain ⟨before, hb, hs, hfirst⟩ := exists_trimStart s
  obtain ⟨after, ha, hcut, hlast⟩ : ∃ after, IsBlankRun after ∧ trimStart s = trim s ++ after ∧
      ∀ c ∈ (trim s).getLast?, isBlank c = false := exists_trimEnd (trimStart s)
  refine ⟨before, after, hb, ha, ?_, fun hne => ⟨hne, ?_, hlast⟩⟩
  · rw [List.append_assoc, ← hcut, ← hs]
  · rw [hcut, List.head?_append_of_ne_nil _ hne] at hfirst
    exact hfirst

theorem isTrimmed_iff : IsTrimmed s ↔ s ≠ [] ∧ trim s = s := by
  refine ⟨fun hs => ⟨hs.ne_nil, trim_of_isTrimmed hs⟩, fun ⟨hne, hs⟩ => ?_⟩
  obtain ⟨_, _, -, -, -, htrimmed⟩ := exists_trim s
  rw [hs] at htrimmed
  exact htrimmed hne

instance : DecidablePred IsTrimmed := fun _ => decidable_of_iff _ isTrimmed_iff.symm

/-! ## The first word -/

theorem firstWord_append_afterWord (s : List Char) : firstWord s ++ afterWord s = s :=
  List.takeWhile_append_dropWhile

/-- Behind the first word there is a blank or nothing. -/
theorem first_afterWord : ∀ c ∈ (afterWord s).head?, isBlank c = true := fun c hc => by
  simpa using eq_false_of_head?_dropWhile hc

/-- Behind the first word of a trimmed text there is nothing, or there are blanks and then a trimmed
text. -/
theorem IsTrimmed.afterWord_cases (hs : IsTrimmed s) :
    afterWord s = [] ∨ ∃ gap rest, IsBlankRun gap ∧ gap ≠ [] ∧ IsTrimmed rest ∧
      afterWord s = gap ++ rest := by
  refine or_iff_not_imp_left.2 fun hne => ?_
  have hlast : ∀ c ∈ (afterWord s).getLast?, isBlank c = false := by
    rw [← List.getLast?_append_of_ne_nil (firstWord s) hne, firstWord_append_afterWord]
    exact hs.last
  obtain ⟨gap, hgap, hcut, hfirst⟩ := exists_trimStart (afterWord s)
  generalize trimStart (afterWord s) = rest at hcut hfirst
  have hblank := first_afterWord (s := s)
  rw [hcut] at hlast hblank hne
  have hrest : rest ≠ [] := by
    rintro rfl
    obtain ⟨c, hc⟩ := Option.ne_none_iff_exists'.1 (mt List.getLast?_eq_none_iff.1 hne)
    have hc' : c ∈ gap := by simpa using List.mem_of_getLast? hc
    exact Bool.eq_false_iff.1 (hlast c hc) (hgap c hc')
  refine ⟨gap, rest, hgap, ?_, ⟨hrest, hfirst, ?_⟩, hcut⟩
  · rintro rfl
    obtain ⟨c, hc⟩ := Option.ne_none_iff_exists'.1 (mt List.head?_eq_none_iff.1 hrest)
    exact Bool.eq_false_iff.1 (hfirst c hc) (hblank c hc)
  · rw [List.getLast?_append_of_ne_nil _ hrest] at hlast
    exact hlast

/-- There is no cut when nothing stands behind the first word. -/
theorem cutAtBlank_eq_none (h : afterWord s = []) : cutAtBlank s = none := by
  unfold afterWord at h
  rw [cutAtBlank, h]

/-- The first word is cut off, and the blank behind it goes. -/
theorem cutAtBlank_eq_some {c : Char} {rest : List Char} (h : afterWord s = c :: rest) :
    cutAtBlank s = some (firstWord s, rest) := by
  unfold afterWord at h
  rw [cutAtBlank, h, firstWord]

section
variable {word rest : List Char}

theorem firstWord_append (hword : ∀ c ∈ word, isBlank c = false)
    (hrest : ∀ c ∈ rest.head?, isBlank c = true) : firstWord (word ++ rest) = word := by
  have hstop : rest.takeWhile (!isBlank ·) = [] := by
    cases rest with
    | nil => rfl
    | cons c rest =>
      have hc : isBlank c = true := hrest c rfl
      rw [List.takeWhile_cons, hc]
      rfl
  have hpass : ∀ c ∈ word, (!isBlank c) = true := fun c hc => by rw [hword c hc]; rfl
  rw [firstWord, List.takeWhile_append_of_pos hpass, hstop, List.append_nil]

theorem afterWord_append (hword : ∀ c ∈ word, isBlank c = false)
    (hrest : ∀ c ∈ rest.head?, isBlank c = true) : afterWord (word ++ rest) = rest := by
  have hcut := firstWord_append_afterWord (word ++ rest)
  rw [firstWord_append hword hrest] at hcut
  exact List.append_cancel_left hcut

end

end

end Clearance.Text
