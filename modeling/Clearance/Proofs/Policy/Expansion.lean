import Clearance.Policy.Hierarchy
import Clearance.Proofs.Text.Pieces
import Clearance.Proofs.Text.Replacement

/-!
# Expansion token by token

As long as no role name holds a delimiter, expansion goes through a segment from delimiter to
delimiter (`expandChars_intercalate`), whatever names it inserts on the way. A token with a mark at
its end is then rewritten at most once: `expandMark_concat` finds the role in the order of the
pass, and `expandChars_concat_plus` and `expandChars_concat_minus` show that the other pass leaves
the result alone.
-/

namespace Clearance.Hierarchy

open Text (replaceMarked)

/-- Skipping to the first place of an element. -/
theorem dropWhile_bne_append {α : Type _} [BEq α] [LawfulBEq α] {before after : List α} {a : α}
    (ha : a ∉ before) : (before ++ a :: after).dropWhile (· != a) = a :: after := by
  have hskip : ∀ b ∈ before, (b != a) = true := by
    intro b hb
    have hne : b ≠ a := fun e => ha (e ▸ hb)
    simpa using hne
  rw [List.dropWhile_append_of_pos hskip]
  simp

/-- A tier holds no character besides `|` and those of the names. -/
theorem notMem_tier {c : Char} {order : List (List Char)} {role : List Char} (hc : c ≠ '|')
    (hfree : ∀ r ∈ order, c ∉ r) : c ∉ tier order role := by
  intro h
  rcases Text.mem_intercalate h with rfl | ⟨r, hr, hcr⟩
  · exact hc rfl
  · exact hfree r ((List.dropWhile_sublist _).mem hr) hcr

/-! ## One pass -/

section
variable {mark : Char} {order : List (List Char)}

/-- Replacements leave a text without their mark alone, whatever they insert. -/
theorem foldl_replaceMarked_of_notMem {group : List Char → List Char} {segment : List Char}
    (habs : mark ∉ segment) :
    order.foldl (fun s role => replaceMarked role mark (group role) s) segment = segment := by
  induction order with
  | nil => rfl
  | cons r order ih => rw [List.foldl_cons, Text.replaceMarked_of_notMem r _ habs, ih]

/-- A pass leaves a segment without its mark alone. -/
theorem expandMark_of_notMem {segment : List Char} (habs : mark ∉ segment) :
    expandMark mark order segment = segment :=
  foldl_replaceMarked_of_notMem habs

/-- A delimiter cuts a segment in two that a pass rewrites apart. -/
theorem expandMark_append_cons {d : Char} (hd : ∀ r ∈ order, d ∉ r) (hm : d ≠ mark)
    (a b : List Char) :
    expandMark mark order (a ++ d :: b) =
      expandMark mark order a ++ d :: expandMark mark order b := by
  unfold expandMark
  generalize tier order = group
  induction order generalizing a b with
  | nil => rfl
  | cons r order ih =>
    have hr : d ∉ r := hd r List.mem_cons_self
    rw [List.foldl_cons, List.foldl_cons, List.foldl_cons,
      Text.replaceMarked_append_cons hr hm, ih fun q hq => hd q (List.mem_cons_of_mem _ hq)]

/-- What a pass makes of a body with the mark behind it: the tier of the first role in the order
that is a suffix of the body takes the place of that role and the mark. -/
def rewritten (mark : Char) (order : List (List Char)) (body : List Char) : List Char :=
  match order.find? (· <:+ body) with
  | some role => body.take (body.length - role.length) ++ tier order role
  | none => body ++ [mark]

/-- A pass rewrites a body with its only mark at the end. -/
theorem expandMark_concat {body : List Char} (hb : mark ∉ body) (hm : mark ≠ '|')
    (ho : ∀ r ∈ order, mark ∉ r) :
    expandMark mark order (body ++ [mark]) = rewritten mark order body := by
  have hgroup : ∀ role, mark ∉ tier order role := fun _ => notMem_tier hm ho
  unfold expandMark rewritten
  generalize tier order = group at hgroup
  induction order with
  | nil => rfl
  | cons r order ih =>
    have hr : mark ∉ r := ho r List.mem_cons_self
    rw [List.foldl_cons, Text.replaceMarked_concat hr hb]
    by_cases hit : r <:+ body
    · -- The mark is gone, so that the roles that come later find nothing to replace.
      have hgone : mark ∉ body.take (body.length - r.length) ++ group r := by
        rw [List.mem_append]
        rintro (h | h)
        · exact hb (List.mem_of_mem_take h)
        · exact hgroup r h
      rw [if_pos hit, List.find?_cons_of_pos (by simpa using hit)]
      exact foldl_replaceMarked_of_notMem hgone
    · rw [if_neg hit, List.find?_cons_of_neg (by simpa using hit)]
      exact ih fun q hq => ho q (List.mem_cons_of_mem _ hq)

/-- What a pass makes of a body holds no character besides the mark, `|` and those of the body and
the roles. -/
theorem notMem_rewritten {c : Char} {body : List Char} (hb : c ∉ body) (hc : c ≠ '|')
    (ho : ∀ r ∈ order, c ∉ r) (hm : c ≠ mark) : c ∉ rewritten mark order body := by
  unfold rewritten
  cases order.find? (· <:+ body) with
  | none => simp [hb, hm]
  | some role =>
    rw [List.mem_append]
    rintro (h | h)
    · exact hb (List.mem_of_mem_take h)
    · exact notMem_tier hc ho h

end

/-! ## Both passes -/

section
variable {roles : List (List Char)}

/-- Expansion leaves a segment without marks alone. -/
theorem expandChars_of_notMem {segment : List Char} (hp : '+' ∉ segment) (hm : '-' ∉ segment) :
    expandChars roles segment = segment := by
  rw [expandChars, expandMark_of_notMem hp, expandMark_of_notMem hm]

/-- A delimiter cuts a segment in two that are expanded apart. -/
theorem expandChars_append_cons {d : Char} (hd : ∀ r ∈ roles, d ∉ r) (hp : d ≠ '+')
    (hm : d ≠ '-') (a b : List Char) :
    expandChars roles (a ++ d :: b) = expandChars roles a ++ d :: expandChars roles b := by
  have hrev : ∀ r ∈ roles.reverse, d ∉ r := fun r hr => hd r (List.mem_reverse.1 hr)
  rw [expandChars, expandMark_append_cons hrev hp, expandMark_append_cons hd hm]
  rfl

/-- **Expansion goes token by token.** Tokens joined by a delimiter that no role holds are expanded
one by one. -/
theorem expandChars_intercalate {d : Char} (hd : ∀ r ∈ roles, d ∉ r) (hp : d ≠ '+')
    (hm : d ≠ '-') (tokens : List (List Char)) :
    expandChars roles ([d].intercalate tokens) =
      [d].intercalate (tokens.map (expandChars roles)) := by
  induction tokens with
  | nil => exact expandChars_of_notMem List.not_mem_nil List.not_mem_nil
  | cons t rest ih =>
    cases rest with
    | nil => simp
    | cons u rest =>
      rw [List.intercalate_cons_cons, List.append_assoc, List.singleton_append,
        expandChars_append_cons hd hp hm, ih]
      simp only [List.map_cons]
      rw [List.intercalate_cons_cons, List.append_assoc, List.singleton_append]

/-- A body with `+` behind it is rewritten in the reversed order. -/
theorem expandChars_concat_plus {body : List Char} (hp : '+' ∉ body) (hm : '-' ∉ body)
    (hrp : ∀ r ∈ roles, '+' ∉ r) (hrm : ∀ r ∈ roles, '-' ∉ r) :
    expandChars roles (body ++ ['+']) = rewritten '+' roles.reverse body := by
  have hrp' : ∀ r ∈ roles.reverse, '+' ∉ r := fun r hr => hrp r (List.mem_reverse.1 hr)
  have hrm' : ∀ r ∈ roles.reverse, '-' ∉ r := fun r hr => hrm r (List.mem_reverse.1 hr)
  rw [expandChars, expandMark_concat hp (by decide) hrp',
    expandMark_of_notMem (notMem_rewritten hm (by decide) hrm' (by decide))]

/-- A body with `-` behind it is rewritten in the declared order. -/
theorem expandChars_concat_minus {body : List Char} (hp : '+' ∉ body) (hm : '-' ∉ body)
    (hrm : ∀ r ∈ roles, '-' ∉ r) :
    expandChars roles (body ++ ['-']) = rewritten '-' roles body := by
  have hplus : '+' ∉ body ++ ['-'] := by simp [hp]
  rw [expandChars, expandMark_of_notMem hplus, expandMark_concat hm (by decide) hrm]

end

end Clearance.Hierarchy
