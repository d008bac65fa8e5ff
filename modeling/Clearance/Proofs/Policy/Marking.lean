import Clearance.Proofs.Policy.Overlap

/-!
# Marked segments

A role segment is a list of tokens with delimiters between them (`MarkedSegment`), each a body with
at most one mark behind it (`MarkedToken`). While no role name holds a mark or a delimiter,
expansion keeps the delimiters in their places and rewrites every token for itself (`expand_write`),
whether role names are empty, repeated or suffixes of one another. `MarkedToken.expansion` is what
it makes of a token, and `expand_marked_segment` says what that means in terms of the declared
order.
-/

namespace Clearance

/-! ## Segments -/

/-- What may stand behind a token. -/
inductive Mark where
  | ascending
  | descending
  deriving DecidableEq

/-- The mark as it is written. -/
def Mark.char : Mark → Char
  | ascending => '+'
  | descending => '-'

/-- What stands between two tokens. -/
inductive Delimiter where
  | conjunction
  | alternative
  deriving DecidableEq

/-- The delimiter as it is written. -/
def Delimiter.char : Delimiter → Char
  | conjunction => '&'
  | alternative => '|'

/-- The text holds no mark and no delimiter. -/
def IsUnmarked (text : String) : Prop := ∀ c ∈ ['+', '-', '&', '|'], c ∉ text.toList

instance (text : String) : Decidable (IsUnmarked text) := List.decidableBAll _ _

/-- A body and at most one mark behind it. -/
structure MarkedToken where
  /-- The token without its mark. -/
  body : String
  /-- The mark, if there is one. -/
  mark : Option Mark
  /-- The body holds no mark and no delimiter. -/
  unmarked : IsUnmarked body

/-- The token as it is written. -/
def MarkedToken.text (t : MarkedToken) : String :=
  match t.mark with
  | none => t.body
  | some m => t.body.push m.char

/-- Tokens with delimiters between them, in any mixture. -/
inductive MarkedSegment where
  /-- One token. -/
  | last (token : MarkedToken)
  /-- A token, a delimiter and the tokens after it. -/
  | more (token : MarkedToken) (delimiter : Delimiter) (rest : MarkedSegment)

/-- The segment with its delimiters, each token written in the given way. -/
def MarkedSegment.write (token : MarkedToken → String) : MarkedSegment → String
  | last t => token t
  | more t d rest => (token t).push d.char ++ rest.write token

/-! ## What a token stands for -/

namespace Hierarchy

/-- The roles in the order of the pass for a mark: `+` goes backwards through the declared order and
`-` forwards. -/
def visited (h : Hierarchy) : Mark → List String
  | .ascending => h.roles.reverse
  | .descending => h.roles

/-- The names beyond a role, from the nearest to the farthest: for `+` those before its last
declared occurrence, and for `-` those after its first. -/
def namesBeyond (h : Hierarchy) (m : Mark) (role : String) : List String :=
  ((h.visited m).dropWhile (· != role)).tail

end Hierarchy

namespace MarkedToken

/-- What expansion makes of a token. A marked one is read for the first role in the order of its
pass that the body ends with: the body stays, and behind it come the names beyond that role. -/
def expansion (h : Hierarchy) (t : MarkedToken) : String :=
  match t.mark with
  | none => t.text
  | some m =>
    match Hierarchy.ending? (h.visited m) t.body with
    | some role => Text.join '|' (t.body :: h.namesBeyond m role)
    | none => t.text

section
variable {h : Hierarchy} {t : MarkedToken}

theorem expansion_of_unmarked (hmark : t.mark = none) : t.expansion h = t.body := by
  rw [expansion, text, hmark]

/-- The body of a marked token is followed by what comes after its role in the order of the pass. -/
theorem expansion_of_marked {m : Mark} {before after : List String} {role : String}
    (hmark : t.mark = some m) (hvisited : h.visited m = before ++ role :: after)
    (hsuf : role.toList <:+ t.body.toList) (hfirst : ∀ r ∈ before, ¬ r.toList <:+ t.body.toList) :
    t.expansion h = Text.join '|' (t.body :: after) := by
  have hskip : role ∉ before := fun hmem => hfirst role hmem hsuf
  rw [expansion, hmark]
  simp only [Hierarchy.ending?_of_eq_append hvisited hsuf hfirst]
  rw [Hierarchy.namesBeyond, hvisited, Hierarchy.dropWhile_bne_append hskip, List.tail_cons]

/-- A token whose body ends with no declared role stays. -/
theorem expansion_of_no_ending (hnone : ∀ r ∈ h.roles, ¬ r.toList <:+ t.body.toList) :
    t.expansion h = t.text := by
  have hend : ∀ m, Hierarchy.ending? (h.visited m) t.body = none := by
    intro m
    refine Hierarchy.ending?_eq_none_iff.2 fun r hr => hnone r ?_
    cases m with
    | ascending => exact List.mem_reverse.1 hr
    | descending => exact hr
  unfold expansion
  cases t.mark with
  | none => rfl
  | some m => simp only [hend]

end

end MarkedToken

/-! ## Expansion -/

section
variable {h : Hierarchy}

/-- The characters of an unmarked role are no marks and no delimiters. -/
theorem Hierarchy.notMem_of_unmarked (hh : ∀ r ∈ h.roles, IsUnmarked r) {c : Char}
    (hc : c ∈ ['+', '-', '&', '|']) : ∀ r ∈ h.roles.map String.toList, c ∉ r :=
  List.forall_mem_map.2 fun r hr => hh r hr c hc

/-- Expansion rewrites a marked body in the order of the pass for its mark. -/
theorem Hierarchy.expandChars_push (hh : ∀ r ∈ h.roles, IsUnmarked r) {body : String}
    (hb : IsUnmarked body) (m : Mark) :
    expandChars (h.roles.map String.toList) (body.push m.char).toList =
      rewritten m.char ((h.visited m).map String.toList) body.toList := by
  have hplus := notMem_of_unmarked hh (c := '+') (by simp)
  have hminus := notMem_of_unmarked hh (c := '-') (by simp)
  have hbp := hb '+' (by simp)
  have hbm := hb '-' (by simp)
  rw [String.toList_push]
  cases m with
  | ascending =>
    rw [visited, List.map_reverse]
    exact expandChars_concat_plus hbp hbm hplus hminus
  | descending => exact expandChars_concat_minus hbp hbm hminus

/-- Expansion of one token. -/
theorem MarkedToken.expand_text (hh : ∀ r ∈ h.roles, IsUnmarked r) (t : MarkedToken) :
    Hierarchy.expandChars (h.roles.map String.toList) t.text.toList = (t.expansion h).toList := by
  unfold text expansion
  cases hmark : t.mark with
  | none =>
    simp only [text, hmark]
    exact Hierarchy.expandChars_of_notMem (t.unmarked '+' (by simp)) (t.unmarked '-' (by simp))
  | some m =>
    simp only [text, hmark]
    rw [Hierarchy.expandChars_push hh t.unmarked]
    cases hend : Hierarchy.ending? (h.visited m) t.body with
    | some role => exact Hierarchy.rewritten_name hend
    | none =>
      simp only
      rw [Hierarchy.rewritten_of_ending?_eq_none hend, String.toList_push]

/-- **Expansion rewrites token by token** and keeps the delimiters. -/
theorem expand_write (hh : ∀ r ∈ h.roles, IsUnmarked r) (s : MarkedSegment) :
    h.expand (s.write MarkedToken.text) = s.write (MarkedToken.expansion h) := by
  apply String.toList_inj.1
  rw [Hierarchy.toList_expand]
  induction s with
  | last t => exact MarkedToken.expand_text hh t
  | more t d rest ih =>
    have hd : d.char ∈ ['+', '-', '&', '|'] := by cases d <;> simp [Delimiter.char]
    have hplus : d.char ≠ '+' := by cases d <;> decide
    have hminus : d.char ≠ '-' := by cases d <;> decide
    rw [MarkedSegment.write, MarkedSegment.write, String.toList_append, String.toList_append,
      String.toList_push, String.toList_push, List.append_assoc, List.append_assoc,
      List.singleton_append, List.singleton_append,
      Hierarchy.expandChars_append_cons (Hierarchy.notMem_of_unmarked hh hd) hplus hminus,
      MarkedToken.expand_text hh t, ih]

/-- **Meaning of a marked segment.** Among roles without marks and delimiters, expansion keeps every
delimiter in its place and rewrites the tokens between them one by one. An unmarked token stays. The
body of a token with `+` is followed by the names before the last declared role that it ends with,
from the nearest to the farthest, the body of a token with `-` by the names after the first one in
their order, each behind a `|`; a token that ends with no declared role before its mark stays. -/
theorem expand_marked_segment (hh : ∀ r ∈ h.roles, IsUnmarked r) (s : MarkedSegment) :
    h.expand (s.write MarkedToken.text) = s.write (MarkedToken.expansion h) ∧
      ∀ t : MarkedToken,
        (t.mark = none → t.expansion h = t.body) ∧
        (∀ before role after, h.roles = before ++ role :: after → role.toList <:+ t.body.toList →
          (t.mark = some .ascending → (∀ r ∈ after, ¬ r.toList <:+ t.body.toList) →
            t.expansion h = Text.join '|' (t.body :: before.reverse)) ∧
          (t.mark = some .descending → (∀ r ∈ before, ¬ r.toList <:+ t.body.toList) →
            t.expansion h = Text.join '|' (t.body :: after))) ∧
        ((∀ r ∈ h.roles, ¬ r.toList <:+ t.body.toList) → t.expansion h = t.text) := by
  refine ⟨expand_write hh s, fun t => ⟨MarkedToken.expansion_of_unmarked, ?_,
    MarkedToken.expansion_of_no_ending⟩⟩
  intro before role after hroles hsuf
  constructor
  · intro hmark hlast
    have hvisited : h.visited .ascending = after.reverse ++ role :: before.reverse := by
      simp [Hierarchy.visited, hroles]
    exact MarkedToken.expansion_of_marked hmark hvisited hsuf fun r hr =>
      hlast r (List.mem_reverse.1 hr)
  · intro hmark hfirst
    exact MarkedToken.expansion_of_marked hmark hroles hsuf hfirst

/-- With `admin` declared on both sides of `superadmin`, a `+` behind `superadmin` is read for the
second of the two. -/
theorem expand_between_admins :
    Hierarchy.expand ⟨["member", "admin", "superadmin", "admin"]⟩ "superadmin+&auditor|member-" =
      "superadmin|superadmin|admin|member&auditor|member|admin|superadmin|admin" := by
  have hh : ∀ r ∈ ["member", "admin", "superadmin", "admin"], IsUnmarked r := by decide +kernel
  exact (expand_marked_segment (h := ⟨["member", "admin", "superadmin", "admin"]⟩) hh
    (.more ⟨"superadmin", some .ascending, by decide +kernel⟩ .conjunction
      (.more ⟨"auditor", none, by decide +kernel⟩ .alternative
        (.last ⟨"member", some .descending, by decide +kernel⟩)))).1

end

end Clearance
