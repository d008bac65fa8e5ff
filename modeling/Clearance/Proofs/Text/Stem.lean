import Clearance.Proofs.Text.Replacement

/-!
# Texts before a delimiter

The stem of a text is what stands before its first delimiter. Replacing a marked word by text that
begins with the word and goes on, if at all, with the delimiter takes a mark away from the stem or
cuts it short. So no replacement makes a stem longer (`length_stem_replaceMarked_le`), and one in a
text without the delimiter makes it shorter (`length_stem_replaceMarked_lt`).
-/

namespace Clearance.Text

/-- What stands before the first `d`. -/
def stem (d : Char) (s : List Char) : List Char := s.takeWhile (· != d)

section
variable {d : Char} {a : List Char}

theorem stem_append_of_notMem (hd : d ∉ a) (b : List Char) :
    stem d (a ++ b) = a ++ stem d b := by
  refine List.takeWhile_append_of_pos fun c hc => ?_
  have hne : c ≠ d := fun e => hd (e ▸ hc)
  simpa using hne

theorem stem_of_notMem (hd : d ∉ a) : stem d a = a := by
  simpa [stem] using stem_append_of_notMem hd []

theorem stem_append_of_mem (hd : d ∈ a) (b : List Char) : stem d (a ++ b) = stem d a := by
  obtain ⟨x, y, rfl, hx⟩ := List.eq_append_cons_of_mem hd
  rw [List.append_assoc, stem_append_of_notMem hx, stem_append_of_notMem hx]
  simp [stem]

theorem stem_cons_of_ne {c : Char} (hc : c ≠ d) : stem d (c :: a) = c :: stem d a :=
  stem_append_of_notMem (a := [c]) (by simpa using hc.symm) a

end

section
variable {word more : List Char} {mark d : Char}

/-- Where the marked word stands before any delimiter, the inserted text has a shorter stem. -/
theorem length_stem_append_lt {a b : List Char} (hd : d ∉ word) (hm : mark ≠ d)
    (hmore : more = [] ∨ more.head? = some d) (hab : (stem d a).length ≤ (stem d b).length) :
    (stem d (word ++ more ++ a)).length < (stem d (word ++ mark :: b)).length := by
  rw [List.append_assoc, stem_append_of_notMem hd, stem_append_of_notMem hd, stem_cons_of_ne hm,
    List.length_append, List.length_append, List.length_cons]
  rcases hmore with rfl | hmore
  · rw [List.nil_append]
    omega
  · obtain ⟨rest, rfl⟩ := List.head?_eq_some_iff.1 hmore
    simp [stem]

/-- A replacement does not make the stem longer. -/
theorem length_stem_replaceMarked_le (hm : mark ≠ d) (hmore : more = [] ∨ more.head? = some d)
    (s : List Char) :
    (stem d (replaceMarked word mark (word ++ more) s)).length ≤ (stem d s).length := by
  induction s using replaceMarked_induction word mark with
  | nil => exact Nat.le_refl _
  | hit rest ih =>
    rw [replaceMarked_append]
    by_cases hd : d ∈ word
    · refine Nat.le_of_eq (congrArg List.length ?_)
      rw [List.append_assoc, stem_append_of_mem hd, stem_append_of_mem hd]
    · exact Nat.le_of_lt (length_stem_append_lt hd hm hmore ih)
  | miss c rest hmiss ih =>
    rw [replaceMarked_cons_of_not_isPrefix hmiss]
    by_cases hc : c = d
    · simp [stem, hc]
    · rw [stem_cons_of_ne hc, stem_cons_of_ne hc, List.length_cons, List.length_cons]
      exact Nat.succ_le_succ ih

/-- In a text without the delimiter a replacement makes the stem shorter. -/
theorem length_stem_replaceMarked_lt (hm : mark ≠ d) (hmore : more = [] ∨ more.head? = some d)
    {s : List Char} (hd : d ∉ s) (hit : word ++ [mark] <:+: s) :
    (stem d (replaceMarked word mark (word ++ more) s)).length < (stem d s).length := by
  induction s with
  | nil => simp at hit
  | cons c rest ih =>
    have hc : c ≠ d := fun e => hd (e ▸ List.mem_cons_self)
    by_cases hfirst : word ++ [mark] <+: c :: rest
    · have hword : d ∉ word := fun h => hd (hfirst.subset (List.mem_append_left _ h))
      obtain ⟨b, hb⟩ := hfirst
      rw [List.append_assoc, List.singleton_append] at hb
      rw [← hb, replaceMarked_append]
      exact length_stem_append_lt hword hm hmore (length_stem_replaceMarked_le hm hmore b)
    · have hrest : word ++ [mark] <:+: rest := (List.infix_cons_iff.1 hit).resolve_left hfirst
      rw [replaceMarked_cons, if_neg hfirst, stem_cons_of_ne hc, stem_cons_of_ne hc,
        List.length_cons, List.length_cons]
      exact Nat.succ_lt_succ (ih (fun h => hd (List.mem_cons_of_mem _ h)) hrest)

end

end Clearance.Text
