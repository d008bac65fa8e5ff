import Clearance.Text.Replace

/-!
# Replacing marked words piece by piece

A replacement passes every occurrence of the marked word as a whole and every other character alone
(`replaceMarked_induction`). A word without a delimiter is found on one side of it or on the other,
so a replacement goes through a text from delimiter to delimiter (`replaceMarked_append_cons`).
Between two delimiters a text that carries the mark at its end only is changed at that end or not
at all (`replaceMarked_concat`): it is changed when the word is a suffix of what stands before the
mark.
-/

namespace Clearance.Text

/-- A list without a delimiter is a prefix of a longer text only within its first piece. -/
theorem prefix_append_cons_iff {d : Char} {l a b : List Char} (hd : d ∉ l) :
    l <+: a ++ d :: b ↔ l <+: a := by
  constructor
  · intro h
    induction l generalizing a with
    | nil => exact List.nil_prefix
    | cons c l ih =>
      cases a with
      | nil =>
        obtain ⟨rfl, -⟩ := List.cons_prefix_cons.1 h
        exact absurd List.mem_cons_self hd
      | cons e a =>
        obtain ⟨rfl, hla⟩ := List.cons_prefix_cons.1 h
        exact List.cons_prefix_cons.2 ⟨rfl, ih (fun hl => hd (List.mem_cons_of_mem _ hl)) hla⟩
  · intro h
    exact h.trans (List.prefix_append _ _)

/-- A marked word is a prefix of a marked text only if the two are the same, unless one of them
holds the mark in another place. -/
theorem concat_prefix_concat_iff {mark : Char} {word body : List Char} (hw : mark ∉ word)
    (hb : mark ∉ body) : word ++ [mark] <+: body ++ [mark] ↔ word = body := by
  constructor
  · intro h
    have hle : word.length ≤ body.length := by simpa using h.length_le
    have hpre : word <+: body := by
      have := (List.prefix_append word [mark]).trans h
      exact (prefix_append_cons_iff hw).1 this
    obtain ⟨t, rfl⟩ := hpre
    cases t with
    | nil => simp
    | cons c t =>
      rw [List.append_assoc, List.prefix_append_right_inj] at h
      obtain ⟨rfl, -⟩ := List.cons_prefix_cons.1 h
      exact absurd (by simp) hb
  · rintro rfl
    exact List.prefix_rfl

section
variable {word inserted : List Char} {mark : Char}

/-- An occurrence at the start is replaced, and the search goes on behind it. -/
theorem replaceMarked_append (rest : List Char) :
    replaceMarked word mark inserted (word ++ mark :: rest) =
      inserted ++ replaceMarked word mark inserted rest := by
  obtain ⟨c, tail, h⟩ : ∃ c tail, word ++ mark :: rest = c :: tail :=
    List.exists_cons_of_ne_nil (by simp)
  have hit : word ++ [mark] <+: c :: tail := ⟨rest, by simp [← h]⟩
  have hdrop : tail.drop word.length = rest := by
    have hcut := congrArg (List.drop (word.length + 1)) h
    simpa using hcut.symm
  rw [h, replaceMarked_cons, if_pos hit, hdrop]

/-- A character at which the marked word does not start is passed. -/
theorem replaceMarked_cons_of_not_isPrefix {c : Char} {rest : List Char}
    (hmiss : ¬ word ++ [mark] <+: c :: rest) :
    replaceMarked word mark inserted (c :: rest) = c :: replaceMarked word mark inserted rest := by
  rw [replaceMarked_cons, if_neg hmiss]

/-- Induction along a replacement: an occurrence of the marked word is passed as a whole, and any
other character alone. -/
@[elab_as_elim]
theorem replaceMarked_induction (word : List Char) (mark : Char) {motive : List Char → Prop}
    (nil : motive [])
    (hit : ∀ rest, motive rest → motive (word ++ mark :: rest))
    (miss : ∀ c rest, ¬ word ++ [mark] <+: c :: rest → motive rest → motive (c :: rest))
    (s : List Char) : motive s := by
  induction hn : s.length using Nat.strongRecOn generalizing s with
  | ind n ih =>
    cases s with
    | nil => exact nil
    | cons c rest =>
      by_cases h : word ++ [mark] <+: c :: rest
      · obtain ⟨behind, hs⟩ := h
        rw [List.append_assoc, List.singleton_append] at hs
        rw [← hs, List.length_append, List.length_cons] at hn
        rw [← hs]
        exact hit behind (ih _ (by omega) _ rfl)
      · rw [List.length_cons] at hn
        exact miss c rest h (ih _ (by omega) _ rfl)

/-- A replacement brings in no character besides those that it inserts. -/
theorem notMem_replaceMarked {c : Char} {s : List Char} (hi : c ∉ inserted) (hs : c ∉ s) :
    c ∉ replaceMarked word mark inserted s := by
  induction s using replaceMarked_induction word mark with
  | nil => exact hs
  | hit rest ih =>
    have hrest : c ∉ rest := fun h => hs (List.mem_append_right _ (List.mem_cons_of_mem _ h))
    rw [replaceMarked_append, List.mem_append, not_or]
    exact ⟨hi, ih hrest⟩
  | miss d rest hmiss ih =>
    obtain ⟨hd, hrest⟩ := not_or.1 (mt List.mem_cons.2 hs)
    rw [replaceMarked_cons_of_not_isPrefix hmiss, List.mem_cons, not_or]
    exact ⟨hd, ih hrest⟩

/-- A replacement goes the same way after a one-to-one change of all characters. -/
theorem replaceMarked_map {f : Char → Char} (hf : Function.Injective f) (s : List Char) :
    (replaceMarked word mark inserted s).map f =
      replaceMarked (word.map f) (f mark) (inserted.map f) (s.map f) := by
  induction s using replaceMarked_induction word mark with
  | nil => rfl
  | hit rest ih =>
    rw [replaceMarked_append, List.map_append, List.map_append, List.map_cons,
      replaceMarked_append, ih]
  | miss c rest hmiss ih =>
    have hmiss' : ¬ word.map f ++ [f mark] <+: f c :: rest.map f := by
      rwa [← List.map_singleton, ← List.map_append, ← List.map_cons,
        List.prefix_map_iff_of_injective hf]
    rw [replaceMarked_cons_of_not_isPrefix hmiss, List.map_cons, List.map_cons,
      replaceMarked_cons_of_not_isPrefix hmiss', ih]

/-- A text in which the marked word does not occur stays as it is. -/
theorem replaceMarked_of_absent {s : List Char} (habs : ¬ word ++ [mark] <:+: s) :
    replaceMarked word mark inserted s = s := by
  induction s with
  | nil => rfl
  | cons c rest ih =>
    have hmiss : ¬ word ++ [mark] <+: c :: rest := fun h => habs h.isInfix
    have hrest : ¬ word ++ [mark] <:+: rest := fun h => habs (List.infix_cons h)
    rw [replaceMarked_cons_of_not_isPrefix hmiss, ih hrest]

/-- A delimiter that the marked word does not hold cuts the text in two that are replaced apart. -/
theorem replaceMarked_append_cons {d : Char} (hw : d ∉ word) (hm : d ≠ mark) (a b : List Char) :
    replaceMarked word mark inserted (a ++ d :: b) =
      replaceMarked word mark inserted a ++ d :: replaceMarked word mark inserted b := by
  have hpat : d ∉ word ++ [mark] := by simp [hw, hm]
  have hcut : ∀ l, word ++ [mark] <+: l ++ d :: b ↔ word ++ [mark] <+: l :=
    fun _ => prefix_append_cons_iff hpat
  induction a using replaceMarked_induction word mark with
  | nil =>
    have hmiss : ¬ word ++ [mark] <+: d :: b := by
      rw [← List.nil_append (d :: b), hcut]
      simp
    rw [List.nil_append, replaceMarked_cons_of_not_isPrefix hmiss, replaceMarked_nil,
      List.nil_append]
  | hit rest ih =>
    rw [List.append_assoc, List.cons_append, replaceMarked_append, replaceMarked_append, ih,
      List.append_assoc]
  | miss c rest hmiss ih =>
    have hmiss' : ¬ word ++ [mark] <+: c :: (rest ++ d :: b) := mt (hcut (c :: rest)).1 hmiss
    rw [List.cons_append, replaceMarked_cons_of_not_isPrefix hmiss,
      replaceMarked_cons_of_not_isPrefix hmiss', ih, List.cons_append]

/-- In a text with its only mark at the end the word is replaced if it stands right before the
mark. -/
theorem replaceMarked_concat {body : List Char} (hw : mark ∉ word) (hb : mark ∉ body) :
    replaceMarked word mark inserted (body ++ [mark]) =
      if word <:+ body then body.take (body.length - word.length) ++ inserted
      else body ++ [mark] := by
  induction body with
  | nil =>
    rw [List.nil_append, replaceMarked_cons, replaceMarked_nil]
    cases word with
    | nil => simp [replaceMarked_nil]
    | cons c word => simp
  | cons c body ih =>
    have hb' : mark ∉ body := fun h => hb (List.mem_cons_of_mem _ h)
    have hfirst : word ++ [mark] <+: c :: (body ++ [mark]) ↔ word = c :: body :=
      concat_prefix_concat_iff hw hb
    rw [List.cons_append, replaceMarked_cons]
    by_cases hit : word = c :: body
    · subst hit
      rw [if_pos (hfirst.2 rfl), if_pos List.suffix_rfl, List.drop_of_length_le (by simp),
        replaceMarked_nil]
      simp
    · have hsuf : word <:+ c :: body ↔ word <:+ body := by
        rw [List.suffix_cons_iff]
        exact or_iff_right hit
      rw [if_neg (mt hfirst.1 hit), ih hb']
      by_cases hs : word <:+ body
      · have hle := hs.length_le
        rw [if_pos hs, if_pos (hsuf.2 hs), List.length_cons, Nat.succ_sub hle,
          List.take_succ_cons, List.cons_append]
      · rw [if_neg hs, if_neg (mt hsuf.1 hs)]

end

end Clearance.Text
