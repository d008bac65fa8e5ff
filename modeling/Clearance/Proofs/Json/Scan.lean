import Clearance.Json.Printer
import Clearance.Proofs.Json.Quoted
import Clearance.Proofs.Json.Whole

/-!
# Compact text is scanned

The compact text of a value is cut into the tokens that it was written from (`scan_render`). Every
token but a number ends by itself. A number ends at the comma or bracket that comes next, or with
the text.
-/

namespace Clearance.Json

/-! ## Values of integers -/

mutual

/-- Every number in the value is an integer. -/
def Integral : Json → Prop
  | number (.double _) => False
  | array items => ItemsIntegral items
  | object members => MembersIntegral members
  | _ => True

/-- Every number in an item is an integer. -/
def ItemsIntegral : List Json → Prop
  | [] => True
  | v :: rest => v.Integral ∧ ItemsIntegral rest

/-- Every number in a member is an integer. -/
def MembersIntegral : List (String × Json) → Prop
  | [] => True
  | (_, v) :: rest => v.Integral ∧ MembersIntegral rest

end

/-! ## One token -/

namespace Token

variable {t : Token} {c : Char} {s rest : List Char}

theorem scan_nil : scan [] = [] := by
  rw [scan]

/-- A text that starts with a token is this token and the tokens of the rest. -/
theorem scan_cons (hspace : isSpace c = false) (h : next? c s = some (t, rest)) :
    scan (c :: s) = t :: scan rest := by
  rw [scan, hspace]
  simp only [Bool.false_eq_true, if_false]
  split
  · next found =>
    rw [h] at found
    cases found
    rfl
  · next found =>
    rw [h] at found
    cases found

/-- No mark is a space. -/
theorem isSpace_of_mark? (h : mark? c = some t) : isSpace c = false := by
  unfold mark? at h
  split at h
  case h_7 => cases h
  all_goals rfl

/-- A mark in front of other tokens is a token. -/
theorem scan_mark (hchars : t.chars = [c]) (h : mark? c = some t) (ts : List Token)
    (rest : List Char) :
    scan ((t :: ts).flatMap chars ++ rest) = t :: scan (ts.flatMap chars ++ rest) := by
  rw [List.flatMap_cons, hchars, List.append_assoc]
  exact scan_cons (isSpace_of_mark? h) (by rw [next?, h]; rfl)

/-- A quoted text in front of other tokens is a token. -/
theorem scan_text (s : String) (ts : List Token) (rest : List Char) :
    scan ((text (some s) :: ts).flatMap chars ++ rest) =
      text (some s) :: scan (ts.flatMap chars ++ rest) := by
  have hquoted : next? '"' (s.toList.flatMap escape ++ '"' :: (ts.flatMap chars ++ rest)) =
      some (text (some s), ts.flatMap chars ++ rest) :=
    quoted?_quote s _
  rw [List.flatMap_cons, chars, quote, List.append_assoc, List.cons_append, List.append_assoc]
  exact scan_cons rfl hquoted

/-- What a number starts with is no space, mark or quote. -/
theorem next?_of_number (h : c = '-' ∨ c.isDigit = true) :
    isSpace c = false ∧ next? c s = number? (c :: s) := by
  rcases h with rfl | h
  · exact ⟨rfl, rfl⟩
  · have hne : ∀ x, x.isDigit = false → c ≠ x := by
      rintro x hx rfl
      rw [h] at hx
      cases hx
    have hspace : isSpace c = false := by
      simp [isSpace, hne ' ' rfl, hne '\n' rfl, hne '\t' rfl, hne '\r' rfl]
    have hmark : mark? c = none := by
      unfold mark?
      split
      case h_7 => rfl
      all_goals exact absurd rfl (hne _ rfl)
    refine ⟨hspace, ?_⟩
    rw [next?, hmark]
    simp only [if_neg (hne '"' rfl), h, Bool.or_true, if_true]

/-- An integer is a token if it is apart from what follows. -/
theorem scan_whole (n : Whole) (hrest : Literal.Apart rest) :
    scan ((number (Number.whole n).literal).chars ++ rest) =
      number (Number.whole n).literal :: scan rest := by
  obtain ⟨c, s, hchars, hc⟩ := Literal.exists_chars_whole n
  have hread : Literal.read (c :: (s ++ rest)) = some ((Number.whole n).literal, rest) := by
    rw [← List.cons_append, ← hchars]
    exact Literal.read_whole n hrest
  obtain ⟨hspace, hnext⟩ : isSpace c = false ∧ next? c (s ++ rest) = number? (c :: (s ++ rest)) :=
    next?_of_number hc
  rw [chars, hchars, List.cons_append]
  exact scan_cons hspace (by rw [hnext, number?, hread]; rfl)

end Token

/-! ## All tokens of a value -/

/-- What comes after an item is apart from a number. -/
theorem apart_itemTokens (items : List Json) (rest : List Char) :
    Literal.Apart ((itemTokens items).flatMap Token.chars ++ rest) := by
  cases items <;>
  · rintro c ⟨⟩
    decide

/-- What comes after a member is apart from a number. -/
theorem apart_memberTokens (members : List (String × Json)) (rest : List Char) :
    Literal.Apart ((memberTokens members).flatMap Token.chars ++ rest) := by
  cases members <;>
  · rintro c ⟨⟩
    decide

mutual

/-- The text of a value is cut into its tokens. -/
theorem scan_tokens : ∀ (v : Json) (rest : List Char), v.Integral → Literal.Apart rest →
    Token.scan (v.tokens.flatMap Token.chars ++ rest) = v.tokens ++ Token.scan rest
  | .null, _, _, _ => Token.scan_cons rfl rfl
  | .bool true, _, _, _ => Token.scan_cons rfl rfl
  | .bool false, _, _, _ => Token.scan_cons rfl rfl
  | .number (.whole n), _, _, hrest => by
    rw [tokens, List.flatMap_singleton]
    exact Token.scan_whole n hrest
  | .number (.double _), _, h, _ => h.elim
  | .text s, rest, _, _ => by
    rw [tokens]
    exact Token.scan_text s [] rest
  | .array [], _, _, _ => by
    rw [tokens, Token.scan_mark rfl rfl, Token.scan_mark rfl rfl]
    rfl
  | .array (v :: items), rest, h, _ => by
    rw [tokens, Token.scan_mark rfl rfl, List.flatMap_append, List.append_assoc,
      scan_tokens v _ h.1 (apart_itemTokens items rest), scan_itemTokens items rest h.2,
      ← List.append_assoc, List.cons_append]
  | .object [], _, _, _ => by
    rw [tokens, Token.scan_mark rfl rfl, Token.scan_mark rfl rfl]
    rfl
  | .object ((name, v) :: members), rest, h, _ => by
    rw [tokens, Token.scan_mark rfl rfl, Token.scan_text, Token.scan_mark rfl rfl,
      List.flatMap_append, List.append_assoc, scan_tokens v _ h.1 (apart_memberTokens members rest),
      scan_memberTokens members rest h.2, ← List.append_assoc]
    rfl

/-- The text of the items after the first is cut into their tokens. -/
theorem scan_itemTokens : ∀ (items : List Json) (rest : List Char), ItemsIntegral items →
    Token.scan ((itemTokens items).flatMap Token.chars ++ rest) =
      itemTokens items ++ Token.scan rest
  | [], _, _ => by
    rw [itemTokens, Token.scan_mark rfl rfl]
    rfl
  | v :: items, rest, h => by
    rw [itemTokens, Token.scan_mark rfl rfl, List.flatMap_append, List.append_assoc,
      scan_tokens v _ h.1 (apart_itemTokens items rest), scan_itemTokens items rest h.2,
      ← List.append_assoc, List.cons_append]

/-- The text of the members after the first is cut into their tokens. -/
theorem scan_memberTokens : ∀ (members : List (String × Json)) (rest : List Char),
    MembersIntegral members →
    Token.scan ((memberTokens members).flatMap Token.chars ++ rest) =
      memberTokens members ++ Token.scan rest
  | [], _, _ => by
    rw [memberTokens, Token.scan_mark rfl rfl]
    rfl
  | (name, v) :: members, rest, h => by
    rw [memberTokens, Token.scan_mark rfl rfl, Token.scan_text, Token.scan_mark rfl rfl,
      List.flatMap_append, List.append_assoc, scan_tokens v _ h.1 (apart_memberTokens members rest),
      scan_memberTokens members rest h.2, ← List.append_assoc]
    rfl

end

/-- **The compact text of a value is cut into its tokens.** -/
theorem scan_render {v : Json} (h : v.Integral) : Token.scan v.render.toList = v.tokens := by
  have hscan : Token.scan (v.tokens.flatMap Token.chars ++ []) = v.tokens ++ Token.scan [] :=
    scan_tokens v [] h nofun
  rw [Token.scan_nil, List.append_nil, List.append_nil] at hscan
  rw [render, String.toList_ofList, hscan]

end Clearance.Json
