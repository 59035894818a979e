/-
Decimals: a sign and an integer of at most 96 bits over a power of ten
of at most twenty-eight places. The places are part of the value, so
`12.50` keeps its last zero, but they do not count when two decimals are
compared. Zero has no sign, unless a negative number was rounded down to
it; that sign shows in the text and nowhere in comparisons.
-/
import ContentProperties.Numeric.FloatFormat

namespace ContentProperties

/-- A decimal number: the magnitude over `10 ^ scale`, with a sign. -/
structure Decimal where
  /-- Whether a minus sign stands in front. -/
  negative : Bool
  /-- The digits of the number, without its decimal point. -/
  magnitude : Nat
  /-- The number of places after the point. -/
  scale : Nat
  /-- The magnitude fits into 96 bits. -/
  magnitude_lt : magnitude < Numeric.twoTo 96
  /-- There are at most 28 places. -/
  scale_le : scale ≤ 28
  deriving DecidableEq

namespace Decimal

/-- The decimal with the given parts, if they are within the limits. -/
def of? (negative : Bool) (magnitude scale : Nat) : Option Decimal :=
  if hm : magnitude < Numeric.twoTo 96 then
    if hs : scale ≤ 28 then some ⟨negative, magnitude, scale, hm, hs⟩
    else none
  else none

/-- Zero without places. -/
def zero : Decimal := ⟨false, 0, 0, by decide, by decide⟩

/-- A 64-bit integer as a decimal without places. -/
def ofInt64 (i : Int64) : Decimal :=
  ⟨decide (i.toInt < 0), i.toInt.natAbs, 0, by
    have hlo := i.le_toInt
    have hhi := i.toInt_lt
    have room : 9223372036854775808 < Numeric.twoTo 96 := by decide
    omega, by decide⟩

/-- The number without its decimal point. -/
def unscaled (a : Decimal) : Int :=
  if a.negative then -(a.magnitude : Int) else a.magnitude

/-- Two decimals are equal as numbers, whatever their places. -/
def beq (a b : Decimal) : Bool :=
  a.unscaled * Numeric.tenTo b.scale == b.unscaled * Numeric.tenTo a.scale

instance : BEq Decimal := ⟨beq⟩

/-- Whether the number is zero. -/
def isZero (a : Decimal) : Bool := a.magnitude == 0

/-- The number without its fraction, rounded toward zero. -/
def truncate (a : Decimal) : Int := a.unscaled.tdiv (Numeric.tenTo a.scale)

-- ================================================= as a double

/-- The decimal as a double. Without places it is the nearest double.
Otherwise the integer, the fraction and the power of ten are rounded on
their own, and the sum of the first two is rounded half away from zero to
the places of the decimal; this is not always the nearest double. -/
def toDouble (a : Decimal) : Float :=
  if a.scale = 0 then
    let nearest := Numeric.doubleOfNat a.magnitude
    if a.unscaled < 0 then -nearest else nearest
  else
    let power := Numeric.doubleOfNat (Numeric.tenTo a.scale)
    let whole := Numeric.doubleOfNat (a.magnitude / Numeric.tenTo a.scale)
    let fraction :=
      Numeric.doubleOfNat (a.magnitude % Numeric.tenTo a.scale) / power
    let unsigned :=
      if fraction == 0.0 then whole
      else ((whole + fraction) * power).round / power
    if a.negative then -unsigned else unsigned

end Decimal

end ContentProperties
