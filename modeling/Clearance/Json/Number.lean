import Clearance.Json.Double

/-!
# Numbers

A record keeps an integer from `-2 ^ 63` to `2 ^ 64 - 1` exactly and every other number as a
double. `Literal.value?` gives the number of a literal: the digits go into a significand below
`2 ^ 64`, what no longer fits moves the decimal point, and the significand is then scaled by a
power of ten in double arithmetic. A number too large for a double has no value.
`Number.literal` is the way back.
-/

namespace Clearance

/-- An integer that fits a signed or an unsigned 64-bit word. -/
structure Whole where
  /-- The integer. -/
  value : Int
  /-- It is not below `-2 ^ 63`, the least signed word. -/
  lower : -9223372036854775808 ≤ value
  /-- It is below `2 ^ 64`, the number of unsigned words. -/
  upper : value < 18446744073709551616
  deriving DecidableEq

/-- A number as a record keeps it. -/
inductive Number where
  | whole (n : Whole)
  | double (d : Double)
  deriving DecidableEq

/-- The literal of the number. -/
def Number.literal : Number → Literal
  | .whole n => ⟨n.value < 0, Nat.toDigits 10 n.value.natAbs, [], none⟩
  | .double d => d.literal

/-- The number in decimal. -/
def Number.text (n : Number) : String := String.ofList n.literal.chars

namespace Literal

/-! ## The value of a literal -/

/-- Appends digits to an accumulator while it stays below the limit; the second part is what is
left over. -/
def accumulate (limit : Nat) : Nat → List Char → Nat × List Char
  | n, [] => (n, [])
  | n, c :: rest =>
    let next := 10 * n + (c.toNat - '0'.toNat)
    if next < limit then accumulate limit next rest else (n, c :: rest)

/-- A significand stays below `2 ^ 64`. -/
def significandLimit : Nat := Decimal.twoTo 64

/-- A written exponent stays below `2 ^ 31`. -/
def exponentLimit : Nat := Decimal.twoTo 31

/-- The power of ten nearest among doubles. -/
def powerOfTen (e : Nat) : Float := Float.ofScientific 1 false e

/-- Multiplies by a power of ten; beyond the largest power only zero has a product. -/
def scaleUp (x : Float) (e : Nat) : Option Float :=
  if e ≤ 308 then some (x * powerOfTen e) else if x == 0 then some x else none

/-- Divides by a power of ten, in steps of at most the largest power. -/
def scaleDown (x : Float) (e : Nat) : Float :=
  if e ≤ 308 then x / powerOfTen e
  else if x == 0 then x
  else scaleDown (x / powerOfTen 308) (e - 308)
termination_by e

/-- The double `significand * 10 ^ place` with a sign. -/
def double? (negative : Bool) (significand : Nat) (place : Int) : Option Double := do
  let x := significand.toUInt64.toFloat
  let scaled ← if 0 ≤ place then scaleUp x place.toNat else some (scaleDown x (-place).toNat)
  Double.ofFloat? (if negative then -scaled else scaled)

/-- The number of an integer literal whose digits fit the significand; minus zero is a double. -/
def wholeNumber? (negative : Bool) (significand : Nat) : Option Number :=
  let value : Int := if negative then -significand else significand
  if h : (-9223372036854775808 ≤ value ∧ value < 18446744073709551616) ∧
      ¬(negative ∧ significand = 0) then
    some (.whole ⟨value, h.1.1, h.1.2⟩)
  else (double? negative significand 0).map .double

/-- The number of the literal, unless it is too large for a double. -/
def value? (l : Literal) : Option Number :=
  let (leading, cut) := accumulate significandLimit 0 l.integer
  if l.fraction.isEmpty && l.exponent.isNone && cut.isEmpty then wholeNumber? l.negative leading
  else
    let (significand, unread) := accumulate significandLimit leading l.fraction
    let place : Int := cut.length - (l.fraction.length - unread.length : Nat)
    match l.exponent with
    | none => (double? l.negative significand place).map .double
    | some e =>
      match accumulate exponentLimit 0 e.digits with
      | (n, []) =>
        (double? l.negative significand (if e.negative then place - n else place + n)).map .double
      | _ =>
        if significand = 0 || e.negative then (double? l.negative 0 0).map .double else none

end Literal

end Clearance
