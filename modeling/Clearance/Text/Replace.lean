/-!
# Replacing a marked word

The pattern of a replacement is a word followed by one mark, so it is never empty. Occurrences
are found from left to right and do not overlap, and the inserted text is not searched again:
that is `replaceMarked`. Its recursion counts down the characters of an occurrence that has just
been replaced, which `replaceFrom_eq_drop` restates as dropping them.
-/

namespace Clearance.Text

/-- Replaces the occurrences that start at or after the given offset, and drops what stands
before it. -/
def replaceFrom (word : List Char) (mark : Char) (inserted : List Char) :
    Nat → List Char → List Char
  | _, [] => []
  | offset + 1, _ :: rest => replaceFrom word mark inserted offset rest
  | 0, c :: rest =>
    if (word ++ [mark]).isPrefixOf (c :: rest) then
      inserted ++ replaceFrom word mark inserted word.length rest
    else
      c :: replaceFrom word mark inserted 0 rest

/-- Replaces every occurrence of the word followed by the mark. -/
def replaceMarked (word : List Char) (mark : Char) (inserted s : List Char) : List Char :=
  replaceFrom word mark inserted 0 s

theorem replaceFrom_eq_drop (word : List Char) (mark : Char) (inserted : List Char) (k : Nat)
    (s : List Char) :
    replaceFrom word mark inserted k s = replaceMarked word mark inserted (s.drop k) := by
  induction s generalizing k with
  | nil => simp [replaceFrom, replaceMarked]
  | cons c rest ih =>
    cases k with
    | zero => rfl
    | succ k => simpa [replaceFrom] using ih k

theorem replaceMarked_nil (word : List Char) (mark : Char) (inserted : List Char) :
    replaceMarked word mark inserted [] = [] := rfl

theorem replaceMarked_cons (word : List Char) (mark : Char) (inserted : List Char) (c : Char)
    (rest : List Char) :
    replaceMarked word mark inserted (c :: rest) =
      if word ++ [mark] <+: c :: rest then
        inserted ++ replaceMarked word mark inserted (rest.drop word.length)
      else c :: replaceMarked word mark inserted rest := by
  rw [replaceMarked, replaceFrom, replaceFrom_eq_drop, replaceFrom_eq_drop]
  simp [List.isPrefixOf_iff_prefix]

/-- A text without the mark stays as it is. -/
theorem replaceMarked_of_notMem (word : List Char) {mark : Char} (inserted : List Char)
    {s : List Char} (absent : mark ∉ s) : replaceMarked word mark inserted s = s := by
  induction s with
  | nil => rfl
  | cons c rest ih =>
    have missed : ¬ word ++ [mark] <+: c :: rest := fun h => absent (h.subset (by simp))
    rw [replaceMarked_cons, if_neg missed, ih fun h => absent (List.mem_cons_of_mem _ h)]

end Clearance.Text
