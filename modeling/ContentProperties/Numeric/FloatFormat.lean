/-
Binary floating point by its bits: what a bit pattern stands for, and
the bit pattern nearest to a fraction. Both directions are exact integer
arithmetic and hold for single and double precision alike; the sign bit
is kept apart, so the patterns here are magnitudes.
-/
import ContentProperties.Numeric.Digits

namespace ContentProperties.Numeric

/-- The widths of the two fields of a binary format. -/
structure FloatFormat where
  /-- Bits of the fraction, the leading one not counted. -/
  fractionBits : Nat
  /-- Bits of the exponent. -/
  exponentBits : Nat

namespace FloatFormat

/-- Single precision, 32 bits with the sign. -/
def single : FloatFormat := ⟨23, 8⟩

/-- Double precision, 64 bits with the sign. -/
def double : FloatFormat := ⟨52, 11⟩

variable (F : FloatFormat)

/-- The exponent of the last place of the smallest numbers. -/
def minExponent : Int := 
  2 - (twoTo (F.exponentBits - 1) : Int) - F.fractionBits

/-- The pattern of infinity; every greater one is not a number. -/
def infinity : Nat := (twoTo F.exponentBits - 1) * twoTo F.fractionBits

/-- The pattern that stands for all that is not a number. -/
def quietNaN : Nat := F.infinity + twoTo (F.fractionBits - 1)

/-- The significand and the exponent of a finite pattern: it stands for
`significand * 2 ^ exponent`. -/
def parts (bits : Nat) : Nat × Int :=
  let field := bits / twoTo F.fractionBits
  let fraction := bits % twoTo F.fractionBits
  if field = 0 then (fraction, F.minExponent)
  else (twoTo F.fractionBits + fraction, F.minExponent + (field - 1))

/-- A quotient rounded to the nearest integer, halves to even. -/
def roundDiv (num den : Nat) : Nat :=
  let q := num / den
  let twice := 2 * (num % den)
  if den < twice ∨ (twice = den ∧ q % 2 = 1) then q + 1 else q

/-- The quotient `num / (den * 2 ^ e)` as numerator and denominator. -/
def scaled (num den : Nat) (e : Int) : Nat × Nat :=
  if e < 0 then (num * twoTo (-e).toNat, den)
  else (num, den * twoTo e.toNat)

/-- The pattern nearest to `num / den`, halves to even, infinity beyond
the range. The exponent is chosen so that the significand has all its
bits unless the number is among the smallest; counting the significand
on from the exponent field carries into that field as it should. -/
def nearest (num den : Nat) : Nat :=
  if num = 0 then 0
  else
    let low : Int := (num.log2 : Int) - den.log2 - 1 - F.fractionBits
    let e := max F.minExponent low
    let (n, d) := scaled num den e
    let e' := if twoTo (F.fractionBits + 1) ≤ n / d then e + 1 else e
    let (n', d') := scaled num den e'
    min F.infinity
      ((e' - F.minExponent).toNat * twoTo F.fractionBits + roundDiv n' d')

end FloatFormat

/-- The double nearest to a natural number. -/
def doubleOfNat (n : Nat) : Float :=
  Float.ofBits (UInt64.ofNat (FloatFormat.double.nearest n 1))

end ContentProperties.Numeric
