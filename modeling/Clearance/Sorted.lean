/-!
# Lists in the order of a text key

A list is increasing in a key when each element's key comes before the keys of all later
elements, so no key is repeated. `insertByKey` keeps such a list increasing and replaces the
element of an equal key; two increasing lists with the same elements are equal
(`Increasing.ext`).
-/

namespace Clearance

variable {α : Type _} {key : α → String}

/-- The keys come in strictly increasing order. -/
def Increasing (key : α → String) (l : List α) : Prop := l.Pairwise fun a b => key a < key b

/-- Puts an element at its place, instead of the one with the same key if there is one. -/
def insertByKey (key : α → String) (a : α) : List α → List α
  | [] => [a]
  | b :: rest =>
    if key a < key b then a :: b :: rest
    else if key b < key a then b :: insertByKey key a rest
    else a :: rest

theorem increasing_nil : Increasing key ([] : List α) := .nil

/-- Texts of which neither comes first are equal. -/
theorem eq_of_not_lt {s t : String} (h₁ : ¬ s < t) (h₂ : ¬ t < s) : s = t :=
  String.le_antisymm (String.not_lt.1 h₂) (String.not_lt.1 h₁)

/-- In an increasing list the elements after the insertion are those with another key. -/
theorem mem_insertByKey {a b : α} {l : List α} (sorted : Increasing key l) :
    b ∈ insertByKey key a l ↔ b = a ∨ b ∈ l ∧ key b ≠ key a := by
  induction l with
  | nil => simp [insertByKey]
  | cons c rest ih =>
    obtain ⟨before, sorted'⟩ := List.pairwise_cons.1 sorted
    rw [insertByKey]
    split
    · next ac =>
      have other : ∀ x ∈ c :: rest, key x ≠ key a := by
        intro x hx same
        rcases List.mem_cons.1 hx with rfl | hx
        · exact String.lt_irrefl _ (same ▸ ac)
        · exact String.lt_irrefl _ (same ▸ String.lt_trans ac (before x hx))
      constructor
      · intro h
        exact (List.mem_cons.1 h).imp id fun h => ⟨h, other b h⟩
      · rintro (rfl | ⟨h, -⟩)
        · exact List.mem_cons_self
        · exact List.mem_cons_of_mem _ h
    · next nac =>
      split
      · next ca =>
        have : key c ≠ key a := fun same => String.lt_irrefl _ (same ▸ ca)
        rw [List.mem_cons, ih sorted', List.mem_cons]
        constructor
        · rintro (rfl | rfl | ⟨h, hk⟩)
          · exact .inr ⟨.inl rfl, this⟩
          · exact .inl rfl
          · exact .inr ⟨.inr h, hk⟩
        · rintro (rfl | ⟨rfl | h, hk⟩)
          · exact .inr (.inl rfl)
          · exact .inl rfl
          · exact .inr (.inr ⟨h, hk⟩)
      · next nca =>
        have same : key a = key c := eq_of_not_lt nac nca
        constructor
        · intro h
          refine (List.mem_cons.1 h).imp id fun h => ⟨List.mem_cons_of_mem _ h, fun e => ?_⟩
          exact String.lt_irrefl _ (e.trans same ▸ before b h)
        · rintro (rfl | ⟨h, hk⟩)
          · exact List.mem_cons_self
          · rcases List.mem_cons.1 h with rfl | h
            · exact absurd same.symm hk
            · exact List.mem_cons_of_mem _ h

/-- Insertion keeps a list increasing. -/
theorem Increasing.insertByKey {a : α} {l : List α} (sorted : Increasing key l) :
    Increasing key (insertByKey key a l) := by
  induction l with
  | nil => exact List.pairwise_singleton _ _
  | cons c rest ih =>
    obtain ⟨before, sorted'⟩ := List.pairwise_cons.1 sorted
    rw [Clearance.insertByKey]
    split
    · next ac =>
      refine List.pairwise_cons.2 ⟨fun x hx => ?_, sorted⟩
      rcases List.mem_cons.1 hx with rfl | hx
      · exact ac
      · exact String.lt_trans ac (before x hx)
    · next nac =>
      split
      · next ca =>
        refine List.pairwise_cons.2 ⟨fun x hx => ?_, ih sorted'⟩
        rcases (mem_insertByKey sorted').1 hx with rfl | ⟨hx, -⟩
        · exact ca
        · exact before x hx
      · next nca =>
        have same : key a = key c := eq_of_not_lt nac nca
        exact List.pairwise_cons.2 ⟨fun x hx => same ▸ before x hx, sorted'⟩

/-- Increasing lists are equal when they have the same elements. -/
theorem Increasing.ext {l m : List α} (hl : Increasing key l) (hm : Increasing key m)
    (same : ∀ a, a ∈ l ↔ a ∈ m) : l = m := by
  induction l generalizing m with
  | nil =>
    cases m with
    | nil => rfl
    | cons b m => simpa using (same b).2 List.mem_cons_self
  | cons a l ih =>
    cases m with
    | nil => simpa using (same a).1 List.mem_cons_self
    | cons b m =>
      obtain ⟨firstL, restL⟩ := List.pairwise_cons.1 hl
      obtain ⟨firstM, restM⟩ := List.pairwise_cons.1 hm
      have head : a = b := by
        rcases List.mem_cons.1 ((same a).1 List.mem_cons_self) with h | ha
        · exact h
        · rcases List.mem_cons.1 ((same b).2 List.mem_cons_self) with h | hb
          · exact h.symm
          · exact absurd (firstM a ha) (String.lt_asymm (firstL b hb))
      subst head
      congr 1
      refine ih restL restM fun x => ⟨fun hx => ?_, fun hx => ?_⟩
      · rcases List.mem_cons.1 ((same x).1 (List.mem_cons_of_mem _ hx)) with rfl | h
        · exact absurd (firstL x hx) (String.lt_irrefl _)
        · exact h
      · rcases List.mem_cons.1 ((same x).2 (List.mem_cons_of_mem _ hx)) with rfl | h
        · exact absurd (firstM x hx) (String.lt_irrefl _)
        · exact h

end Clearance
