import Clearance.Json.Token
import Mathlib.Tactic.SplitIfs

/-!
# Quoted text is read back

An escape is one piece: the character itself, or its code if it is a control character without a
letter of its own. Such a code is no surrogate, so the pieces are joined to the characters that
were written (`quoted?_quote`).
-/

namespace Clearance.Json

/-- What a single character may be written as. -/
inductive Piece.Means : Piece → Char → Prop where
  | char (c : Char) : Means (.char c) c
  /-- A control character, by its code. -/
  | control {c : Char} (hcontrol : c.toNat < 0x20) : Means (.code c.toNat) c

/-- The two hexadecimal digits of a control character give its code. -/
theorem hexCode?_control :
    ∀ n < 0x20, hexCode? '0' '0' (Nat.digitChar (n / 16)) (Nat.digitChar (n % 16)) = some n := by
  decide

variable {c : Char} {s rest : List Char} {ps : List Piece} {piece : Piece}

/-- A character that needs no escape is a piece. -/
theorem pieces?_cons (hquote : c ≠ '"') (hbackslash : c ≠ '\\') (hcontrol : ¬ c.toNat < 0x20)
    (h : pieces? s = some (ps, rest)) : pieces? (c :: s) = some (.char c :: ps, rest) := by
  rw [pieces?.eq_def]
  split <;> simp_all

/-- A letter after a backslash is a piece. -/
theorem pieces?_letter {e : Char} (hletter : escaped? e = some c)
    (h : pieces? s = some (ps, rest)) : pieces? ('\\' :: e :: s) = some (.char c :: ps, rest) := by
  have hcode : e ≠ 'u' := by
    rintro rfl
    cases hletter
  rw [pieces?, hletter, h]
  exact fun _ _ _ _ _ he _ => hcode he

/-- A code after a backslash is a piece. -/
theorem pieces?_code {a b d e : Char} {n : Nat} (hcode : hexCode? a b d e = some n)
    (h : pieces? s = some (ps, rest)) :
    pieces? ('\\' :: 'u' :: a :: b :: d :: e :: s) = some (.code n :: ps, rest) := by
  rw [pieces?, hcode, h]

/-- A character is read back as one piece. -/
theorem exists_piece_of_escape (c : Char) :
    ∃ piece : Piece, piece.Means c ∧ ∀ s ps rest, pieces? s = some (ps, rest) →
      pieces? (escape c ++ s) = some (piece :: ps, rest) := by
  have hletter {e : Char} (he : escaped? e = some c) :
      ∃ piece : Piece, piece.Means c ∧ ∀ s ps rest, pieces? s = some (ps, rest) →
        pieces? (['\\', e] ++ s) = some (piece :: ps, rest) :=
    ⟨.char c, .char c, fun _ _ _ => pieces?_letter he⟩
  unfold escape
  split_ifs with hquote hbackslash hb hf hn hr ht hcontrol
  · exact hletter (by rw [hquote]; rfl)
  · exact hletter (by rw [hbackslash]; rfl)
  · exact hletter (by rw [hb]; rfl)
  · exact hletter (by rw [hf]; rfl)
  · exact hletter (by rw [hn]; rfl)
  · exact hletter (by rw [hr]; rfl)
  · exact hletter (by rw [ht]; rfl)
  · exact ⟨.code c.toNat, .control hcontrol, fun _ _ _ =>
      pieces?_code (hexCode?_control c.toNat hcontrol)⟩
  · exact ⟨.char c, .char c, fun _ _ _ => pieces?_cons hquote hbackslash hcontrol⟩

/-- Pieces are joined to the characters that they mean. -/
theorem joined?_cons (h : piece.Means c) : joined? (piece :: ps) = (joined? ps).map (c :: ·) := by
  cases h with
  | char => rfl
  | control hcontrol =>
    have hleading : isLeading c.toNat = false := by
      simp [isLeading]
      omega
    have htrailing : isTrailing c.toNat = false := by
      simp [isTrailing]
      omega
    rw [joined?.eq_def]
    simp only [hleading, htrailing, Bool.false_eq_true, if_false, Char.ofNat_toNat]

/-- The pieces of written characters end at the quote and are joined to these characters. -/
theorem pieces?_flatMap_escape (cs rest : List Char) :
    ∃ ps, pieces? (cs.flatMap escape ++ '"' :: rest) = some (ps, rest) ∧ joined? ps = some cs := by
  induction cs with
  | nil => exact ⟨[], by rw [List.flatMap_nil, List.nil_append, pieces?], rfl⟩
  | cons c cs ih =>
    obtain ⟨ps, hps, hjoined⟩ := ih
    obtain ⟨piece, hmeans, hpiece⟩ := exists_piece_of_escape c
    refine ⟨piece :: ps, ?_, ?_⟩
    · rw [List.flatMap_cons, List.append_assoc]
      exact hpiece _ _ _ hps
    · rw [joined?_cons hmeans, hjoined]
      rfl

/-- **Quoted text is read back.** -/
theorem quoted?_quote (s : String) (rest : List Char) :
    Token.quoted? (s.toList.flatMap escape ++ '"' :: rest) = some (.text (some s), rest) := by
  obtain ⟨ps, hps, hjoined⟩ := pieces?_flatMap_escape s.toList rest
  rw [Token.quoted?, hps, Option.map_some]
  simp only [hjoined, Option.map_some, String.ofList_toList]

end Clearance.Json
