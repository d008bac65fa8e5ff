import Clearance.Json.Number

/-!
# Integers are read back

The digits of an integer come without a leading zero, so that they are one literal if no more
digits, no point and no exponent follow (`read_whole`). Its significand fits the accumulator, and
the value of the literal is the integer again (`value?_whole`).
-/

namespace Clearance

/-! ## Decimal digits -/

/-- The digits of a positive number start with no zero. -/
theorem toDigits_ne_zero_cons {n : Nat} (hn : 0 < n) (ds : List Char) :
    Nat.toDigits 10 n ≠ '0' :: ds := by
  induction n using Nat.strongRecOn generalizing ds with
  | ind n ih =>
    rw [Nat.toDigits_eq_if (by decide)]
    split
    · intro h
      have hdigit : ∀ m < 10, 0 < m → Nat.digitChar m ≠ '0' := by decide
      exact hdigit n ‹_› hn (List.cons.inj h).1
    · -- The first digit is that of a tenth of the number, which is positive still.
      have hpos : 0 < n / 10 := by omega
      intro h
      cases hds : Nat.toDigits 10 (n / 10) with
      | nil => exact Nat.toDigits_ne_nil hds
      | cons d rest =>
        rw [hds, List.cons_append] at h
        exact ih (n / 10) (by omega) hpos rest (hds.trans (by rw [(List.cons.inj h).1]))

/-- The first of the digits is one. -/
theorem isDigit_of_toDigits {n : Nat} {d : Char} {ds : List Char}
    (h : Nat.toDigits 10 n = d :: ds) : d.isDigit = true := by
  have hd : d ∈ Nat.toDigits 10 n := by
    rw [h]
    exact List.mem_cons_self
  exact Nat.isDigit_of_mem_toDigits (by decide) (by decide) hd

/-- Digits that are appended to a number do not make it less. -/
theorem le_ofDigitChars (n : Nat) (ds : List Char) : n ≤ Nat.ofDigitChars 10 ds n := by
  rw [Nat.ofDigitChars_eq_ofDigitChars_zero]
  exact Nat.le_trans (Nat.le_mul_of_pos_left n (Nat.pow_pos (by decide))) (Nat.le_add_right _ _)

namespace Literal

/-! ## Reading -/

/-- A text that does not go on with a number. -/
def Apart (rest : List Char) : Prop :=
  ∀ c ∈ rest.head?, c.isDigit = false ∧ c ≠ '.' ∧ c ≠ 'e' ∧ c ≠ 'E'

variable {ds rest : List Char}

/-- All digits up to one that is none are taken. -/
theorem digits?_append (hne : ds ≠ []) (hds : ∀ c ∈ ds, c.isDigit = true) (hrest : Apart rest) :
    digits? (ds ++ rest) = some (ds, rest) := by
  have htake : rest.takeWhile Char.isDigit = [] := by
    cases rest with
    | nil => rfl
    | cons c rest => simp [(hrest c rfl).1]
  have hdrop : rest.dropWhile Char.isDigit = rest := by
    cases rest with
    | nil => rfl
    | cons c rest => simp [(hrest c rfl).1]
  rw [digits?, List.takeWhile_append_of_pos hds, List.dropWhile_append_of_pos hds, htake, hdrop,
    List.append_nil]
  cases ds with
  | nil => exact absurd rfl hne
  | cons => rfl

/-- The digits of a number are an integer part. -/
theorem integer?_toDigits (n : Nat) (hrest : Apart rest) :
    integer? (Nat.toDigits 10 n ++ rest) = some (Nat.toDigits 10 n, rest) := by
  rw [integer?, digits?_append Nat.toDigits_ne_nil
    (fun _ => Nat.isDigit_of_mem_toDigits (by decide) (by decide)) hrest]
  split
  · next hzero =>
    obtain ⟨hzero, -⟩ := Prod.mk.inj (Option.some.inj hzero)
    rcases Nat.eq_zero_or_pos n with rfl | hn
    · simp at hzero
    · exact absurd hzero (toDigits_ne_zero_cons hn _)
  · rfl

theorem fraction?_of_apart (hrest : Apart rest) : fraction? rest = some ([], rest) := by
  cases rest with
  | nil => rfl
  | cons c rest =>
    rw [fraction?]
    exact fun _ he => (hrest c rfl).2.1 (List.cons.inj he).1

theorem exponent?_of_apart (hrest : Apart rest) : exponent? rest = some (none, rest) := by
  cases rest with
  | nil => rfl
  | cons c rest =>
    rw [exponent?]
    · exact fun _ he => (hrest c rfl).2.2.1 (List.cons.inj he).1
    · exact fun _ he => (hrest c rfl).2.2.2 (List.cons.inj he).1

theorem unsigned?_toDigits (negative : Bool) (n : Nat) (hrest : Apart rest) :
    unsigned? negative (Nat.toDigits 10 n ++ rest) =
      some (⟨negative, Nat.toDigits 10 n, [], none⟩, rest) := by
  rw [unsigned?, integer?_toDigits n hrest, Option.bind_some]
  simp only [fraction?_of_apart hrest, exponent?_of_apart hrest, Option.bind_some, Option.map_some]

/-- The literal of an integer is a sign, if it is negative, and digits. -/
theorem chars_whole (n : Whole) :
    (Number.whole n).literal.chars =
      (if n.value < 0 then ['-'] else []) ++ Nat.toDigits 10 n.value.natAbs := by
  simp [Number.literal, chars]

/-- It starts with its sign or with a digit. -/
theorem exists_chars_whole (n : Whole) :
    ∃ c s, (Number.whole n).literal.chars = c :: s ∧ (c = '-' ∨ c.isDigit = true) := by
  rw [chars_whole]
  split
  · exact ⟨'-', _, rfl, .inl rfl⟩
  · cases hds : Nat.toDigits 10 n.value.natAbs with
    | nil => exact absurd hds Nat.toDigits_ne_nil
    | cons d ds => exact ⟨d, ds, rfl, .inr (isDigit_of_toDigits hds)⟩

/-- **An integer is read back as a literal.** -/
theorem read_whole (n : Whole) (hrest : Apart rest) :
    read ((Number.whole n).literal.chars ++ rest) = some ((Number.whole n).literal, rest) := by
  rw [chars_whole, Number.literal]
  split
  · next hneg =>
    rw [decide_eq_true hneg]
    exact unsigned?_toDigits true _ hrest
  · next hneg =>
    rw [decide_eq_false hneg, List.nil_append, read]
    · exact unsigned?_toDigits false _ hrest
    · intro s h
      cases hds : Nat.toDigits 10 n.value.natAbs with
      | nil => exact Nat.toDigits_ne_nil hds
      | cons d ds =>
        have hd : d.isDigit = true := isDigit_of_toDigits hds
        rw [hds, List.cons_append] at h
        rw [(List.cons.inj h).1] at hd
        cases hd

/-! ## Values -/

/-- Digits of a number below the limit are all accumulated. -/
theorem accumulate_of_lt {limit n : Nat} (h : Nat.ofDigitChars 10 ds n < limit) :
    accumulate limit n ds = (Nat.ofDigitChars 10 ds n, []) := by
  induction ds generalizing n with
  | nil => rfl
  | cons c ds ih =>
    rw [Nat.ofDigitChars_cons] at h ⊢
    rw [accumulate, if_pos (Nat.lt_of_le_of_lt (le_ofDigitChars _ _) h)]
    exact ih h

/-- The sign and the size of an integer give the integer. -/
theorem wholeNumber?_natAbs (n : Whole) :
    wholeNumber? (n.value < 0) n.value.natAbs = some (.whole n) := by
  obtain ⟨value, hlower, hupper⟩ := n
  have hvalue : (if value < 0 then -(value.natAbs : Int) else value.natAbs) = value := by
    split <;> omega
  have hfits : (-9223372036854775808 ≤ value ∧ value < 18446744073709551616) ∧
      ¬ (value < 0 ∧ value.natAbs = 0) := by
    omega
  simp only [wholeNumber?, decide_eq_true_eq, hvalue]
  rw [dif_pos hfits]

/-- **The literal of an integer has its value.** -/
theorem value?_whole (n : Whole) : (Number.whole n).literal.value? = some (.whole n) := by
  have hlimit : significandLimit = 18446744073709551616 := by decide
  have hvalue : Nat.ofDigitChars 10 (Nat.toDigits 10 n.value.natAbs) 0 = n.value.natAbs :=
    Nat.ofDigitChars_ten_toDigits
  have hfits : n.value.natAbs < significandLimit := by
    have hlower := n.lower
    have hupper := n.upper
    omega
  have hleading : accumulate significandLimit 0 (Nat.toDigits 10 n.value.natAbs) =
      (n.value.natAbs, []) := by
    rw [accumulate_of_lt (by rwa [hvalue]), hvalue]
  simp only [value?, Number.literal, hleading, List.isEmpty_nil, Option.isNone_none, Bool.and_self,
    if_true]
  exact wholeNumber?_natAbs n

end Literal

end Clearance
