import Clearance.Decimal.Shortest

/-!
# Number literals

A `Literal` holds the parts of a number as it is written. `Literal.read` takes the longest
literal off a text and `Literal.chars` writes one. A `Layout` says which decimals are written
with all their places and which with an exponent.
-/

namespace Clearance

/-- The exponent part of a literal. -/
structure Exponent where
  /-- A minus sign stands before the digits. -/
  negative : Bool
  /-- The digits, at least one. -/
  digits : List Char
  deriving DecidableEq

/-- The parts of a number literal. -/
structure Literal where
  /-- A minus sign stands in front. -/
  negative : Bool
  /-- The digits before the point, at least one. -/
  integer : List Char
  /-- The digits after the point, none if there is no point. -/
  fraction : List Char
  /-- The exponent part. -/
  exponent : Option Exponent
  deriving DecidableEq

namespace Literal

/-! ## Reading -/

/-- The digits at the start of a text, of which there must be one, and the rest. -/
def digits? (s : List Char) : Option (List Char × List Char) :=
  match s.takeWhile Char.isDigit with
  | [] => none
  | ds => some (ds, s.dropWhile Char.isDigit)

/-- The digits of the integer part: a leading zero stands alone. -/
def integer? (s : List Char) : Option (List Char × List Char) :=
  match digits? s with
  | some ('0' :: _ :: _, _) => none
  | found => found

/-- The digits of the fraction, if a point comes next. -/
def fraction? : List Char → Option (List Char × List Char)
  | '.' :: s => digits? s
  | s => some ([], s)

/-- The sign and digits of an exponent, after its letter. -/
def exponentDigits? : List Char → Option (Exponent × List Char)
  | '+' :: s => (digits? s).map fun (ds, rest) => (⟨false, ds⟩, rest)
  | '-' :: s => (digits? s).map fun (ds, rest) => (⟨true, ds⟩, rest)
  | s => (digits? s).map fun (ds, rest) => (⟨false, ds⟩, rest)

/-- The exponent part, if its letter comes next. -/
def exponent? : List Char → Option (Option Exponent × List Char)
  | 'e' :: s => (exponentDigits? s).map fun (e, rest) => (some e, rest)
  | 'E' :: s => (exponentDigits? s).map fun (e, rest) => (some e, rest)
  | s => some (none, s)

/-- The literal after its sign. -/
def unsigned? (negative : Bool) (s : List Char) : Option (Literal × List Char) :=
  (integer? s).bind fun (integer, s) =>
    (fraction? s).bind fun (fraction, s) =>
      (exponent? s).map fun (exponent, s) => (⟨negative, integer, fraction, exponent⟩, s)

/-- The longest number literal at the start of a text and what follows it. -/
def read : List Char → Option (Literal × List Char)
  | '-' :: s => unsigned? true s
  | s => unsigned? false s

theorem length_of_digits? {s ds rest : List Char} (h : digits? s = some (ds, rest)) :
    rest.length < s.length := by
  have total := congrArg List.length (s.takeWhile_append_dropWhile (p := Char.isDigit))
  simp only [digits?] at h
  split at h
  · cases h
  · next found =>
    obtain ⟨-, rfl⟩ := Prod.mk.inj (Option.some.inj h)
    have := List.length_pos_iff.2 found
    grind

theorem length_of_integer? {s ds rest : List Char} (h : integer? s = some (ds, rest)) :
    rest.length < s.length := by
  simp only [integer?] at h
  split at h
  · cases h
  · exact length_of_digits? h

theorem length_of_fraction? {s ds rest : List Char} (h : fraction? s = some (ds, rest)) :
    rest.length ≤ s.length := by
  simp only [fraction?] at h
  split at h
  · have := length_of_digits? h
    simp only [List.length_cons]
    omega
  · cases h
    exact Nat.le_refl _

theorem length_of_exponentDigits? {s rest : List Char} {e : Exponent}
    (h : exponentDigits? s = some (e, rest)) : rest.length < s.length := by
  simp only [exponentDigits?] at h
  split at h <;>
  · obtain ⟨⟨ds, rest'⟩, found, same⟩ := Option.map_eq_some_iff.1 h
    obtain ⟨-, rfl⟩ := Prod.mk.inj same
    have := length_of_digits? found
    simp only [List.length_cons]
    omega

theorem length_of_exponent? {s rest : List Char} {e : Option Exponent}
    (h : exponent? s = some (e, rest)) : rest.length ≤ s.length := by
  simp only [exponent?] at h
  split at h
  · obtain ⟨⟨e', rest'⟩, found, same⟩ := Option.map_eq_some_iff.1 h
    obtain ⟨-, rfl⟩ := Prod.mk.inj same
    have := length_of_exponentDigits? found
    simp only [List.length_cons]
    omega
  · obtain ⟨⟨e', rest'⟩, found, same⟩ := Option.map_eq_some_iff.1 h
    obtain ⟨-, rfl⟩ := Prod.mk.inj same
    have := length_of_exponentDigits? found
    simp only [List.length_cons]
    omega
  · cases h
    exact Nat.le_refl _

theorem length_of_unsigned? {negative : Bool} {s rest : List Char} {l : Literal}
    (h : unsigned? negative s = some (l, rest)) : rest.length < s.length := by
  obtain ⟨⟨i, s₁⟩, integer, h⟩ := Option.bind_eq_some_iff.1 h
  obtain ⟨⟨f, s₂⟩, fraction, h⟩ := Option.bind_eq_some_iff.1 h
  obtain ⟨⟨e, s₃⟩, exponent, h⟩ := Option.map_eq_some_iff.1 h
  obtain ⟨-, rfl⟩ := Prod.mk.inj h
  have := length_of_integer? integer
  have := length_of_fraction? fraction
  have := length_of_exponent? exponent
  dsimp only at *
  omega

/-- A literal takes at least one character. -/
theorem length_of_read {s rest : List Char} {l : Literal} (h : read s = some (l, rest)) :
    rest.length < s.length := by
  simp only [read] at h
  split at h
  · have := length_of_unsigned? h
    simp only [List.length_cons]
    omega
  · exact length_of_unsigned? h

/-! ## Writing -/

/-- The literal as it is written: the sign of an exponent is always given. -/
def chars (l : Literal) : List Char :=
  let sign := if l.negative then ['-'] else []
  let fraction := if l.fraction.isEmpty then [] else '.' :: l.fraction
  let exponent :=
    match l.exponent with
    | none => []
    | some e => 'e' :: (if e.negative then '-' else '+') :: e.digits
  sign ++ l.integer ++ fraction ++ exponent

end Literal

/-! ## Laying out a decimal -/

/-- Which decimals are written with all their places, by the exponent of the first digit. -/
structure Layout where
  /-- The least exponent written with leading zeros. -/
  plainFrom : Int
  /-- The greatest exponent written without an exponent part. -/
  plainTo : Int

/-- The literal of a decimal: with all places and at least one digit after the point if the
layout says so, otherwise with one digit before the point and an exponent. -/
def Layout.literal (layout : Layout) (negative : Bool) (d : Decimal.Digits) : Literal :=
  let zeros (n : Int) := List.replicate n.toNat '0'
  if layout.plainFrom ≤ d.exponent && d.exponent ≤ layout.plainTo then
    if d.exponent < 0 then ⟨negative, ['0'], zeros (-d.exponent - 1) ++ d.digits, none⟩
    else
      let places := d.exponent.toNat + 1
      let fraction := d.digits.drop places
      { negative
        integer := d.digits.take places ++ zeros (places - d.digits.length)
        fraction := if fraction.isEmpty then ['0'] else fraction
        exponent := none }
  else
    { negative
      integer := d.digits.take 1
      fraction := d.digits.drop 1
      exponent := some ⟨d.exponent < 0, Nat.toDigits 10 d.exponent.natAbs⟩ }

end Clearance
