import Clearance.Json.Literal

/-!
# Finite doubles

A `Double` is the 64-bit pattern of a finite binary floating-point number, so equality tells the
two zeros apart. `Double.literal` has the shortest digits that read back, always with a fraction
or an exponent.
-/

namespace Clearance

/-- A finite double, by its bits. -/
structure Double where
  /-- Sign, exponent and fraction. -/
  bits : UInt64
  /-- The exponent field is not the one of the infinities. -/
  finite : bits.toNat / Decimal.twoTo 52 % Decimal.twoTo 11 ≠ 2047
  deriving DecidableEq

namespace Double

/-- The double with the value of a floating-point number, unless that is infinite or no number. -/
def ofFloat? (x : Float) : Option Double :=
  let bits := x.toBits
  if h : bits.toNat / Decimal.twoTo 52 % Decimal.twoTo 11 ≠ 2047 then some ⟨bits, h⟩ else none

/-- The sign bit is set. -/
def negative (d : Double) : Bool := Decimal.twoTo 63 ≤ d.bits.toNat

/-- The exponent field. -/
def exponentField (d : Double) : Nat :=
  d.bits.toNat / Decimal.twoTo 52 % Decimal.twoTo 11

/-- The fraction field. -/
def fractionField (d : Double) : Nat := d.bits.toNat % Decimal.twoTo 52

/-- The number without its sign, as an integer times a power of two. -/
def magnitude (d : Double) : Decimal.Binary :=
  if d.exponentField = 0 then ⟨d.fractionField, -1074, false⟩
  else
    { significand := Decimal.twoTo 52 + d.fractionField
      exponent := d.exponentField - 1075
      atBinade := d.fractionField == 0 && 1 < d.exponentField }

/-- Numbers from 0.00001 to below 10 ^ 16 are written with all their places. -/
def layout : Layout := ⟨-5, 15⟩

/-- The literal with the fewest digits that reads back. -/
def literal (d : Double) : Literal :=
  let magnitude := d.magnitude
  if magnitude.significand = 0 then ⟨d.negative, ['0'], ['0'], none⟩
  else layout.literal d.negative magnitude.shortest

end Double

end Clearance
