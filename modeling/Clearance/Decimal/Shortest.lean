/-!
# Shortest decimals

A binary number stands for every real that rounds to it: its `Binary.span`. `Binary.shortest` is
the decimal in that span with the fewest digits, and of those the one nearest to the number; an
exact tie goes to the even count. The search runs over decimal grids from coarse to fine. On
each grid it looks at the two points next to the number only, for a grid with any point in the
span has one of these two in it. All comparisons are exact, between natural numbers.
-/

namespace Clearance.Decimal

/-- A power of two. -/
def twoTo (n : Nat) : Nat := Nat.pow 2 n

/-- A power of ten. -/
def tenTo (n : Nat) : Nat := Nat.pow 10 n

/-! ## The reals that round to a number -/

/-- The positive number `significand * 2 ^ exponent`. -/
structure Binary where
  /-- The integer that is scaled. -/
  significand : Nat
  /-- The power of two that scales it. -/
  exponent : Int
  /-- The next smaller number is only half as far away as the next larger one. -/
  atBinade : Bool

/-- An interval around a number, as fractions with one denominator. -/
structure Span where
  /-- Numerator of the lower end. -/
  low : Nat
  /-- Numerator of the number. -/
  value : Nat
  /-- Numerator of the upper end. -/
  high : Nat
  /-- The common denominator. -/
  denominator : Nat
  /-- The ends belong to the interval. -/
  closed : Bool

/-- The reals nearer to the number than to its neighbours; the ends round to an even
significand. -/
def Binary.span (b : Binary) : Span :=
  let unit := twoTo b.exponent.toNat
  { low := (4 * b.significand - if b.atBinade then 1 else 2) * unit
    value := 4 * b.significand * unit
    high := (4 * b.significand + 2) * unit
    denominator := 4 * twoTo (-b.exponent).toNat
    closed := b.significand % 2 == 0 }

/-! ## Decimal grids -/

/-- The decimal `count * 10 ^ place`. -/
structure Grid where
  /-- How many units. -/
  count : Nat
  /-- The power of ten that is the unit. -/
  place : Int
  deriving DecidableEq

/-- The number of decimal digits. -/
def digitCount (n : Nat) : Nat := (Nat.toDigits 10 n).length

/-- The place of the first digit: the greatest `k` with `10 ^ k` not above the number. -/
def Span.leadingPlace (s : Span) : Int :=
  if s.denominator ≤ s.value then digitCount (s.value / s.denominator) - 1
  else -digitCount ((s.denominator - 1) / s.value)

/-- The decimal lies in the interval. -/
def Span.contains (s : Span) (g : Grid) : Bool :=
  let x := g.count * tenTo g.place.toNat * s.denominator
  let scale := tenTo (-g.place).toNat
  if s.closed then s.low * scale ≤ x && x ≤ s.high * scale
  else s.low * scale < x && x < s.high * scale

/-- The point of the grid that lies in the interval and is next to the number; of two such
points the nearer, of two equally near the even. -/
def Span.nearest? (s : Span) (place : Int) : Option Grid :=
  let number := s.value * tenTo (-place).toNat
  let unit := tenTo place.toNat * s.denominator
  let below : Grid := ⟨number / unit, place⟩
  let above : Grid := ⟨number / unit + 1, place⟩
  match s.contains below, s.contains above with
  | false, false => none
  | true, false => some below
  | false, true => some above
  | true, true =>
    let middle := (2 * below.count + 1) * unit
    if 2 * number < middle then some below
    else if middle < 2 * number then some above
    else if below.count % 2 == 0 then some below
    else some above

/-- The first hit on the grids from the given place down, over at most `fuel + 1` places. -/
def Span.coarsest (s : Span) : Nat → Int → Grid
  | 0, place => (s.nearest? place).getD ⟨0, place⟩
  | fuel + 1, place => (s.nearest? place).getD (s.coarsest fuel (place - 1))

/-- A decimal as its significant digits and the place of the first one. -/
structure Digits where
  /-- The digits from the first to the last that is not zero. -/
  digits : List Char
  /-- The power of ten that the first digit counts. -/
  exponent : Int

/-- The digits of a grid point, without the zeros at its end. -/
def Grid.digits (g : Grid) : Digits :=
  let all := Nat.toDigits 10 g.count
  { digits := (all.reverse.dropWhile (· == '0')).reverse, exponent := g.place + all.length - 1 }

/-- The shortest decimal that rounds to the number; seventeen digits always suffice. -/
def Binary.shortest (b : Binary) : Digits :=
  (b.span.coarsest 16 b.span.leadingPlace).digits

end Clearance.Decimal
