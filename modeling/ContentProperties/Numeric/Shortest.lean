/-
The shortest decimal digits of a floating-point number: the fewest that
lie closer to it than to its neighbours, and of those the nearest. The
reals that round to the number form an interval, closed when its
significand is even. On each decimal grid, from one digit upward, only
the two points next to the number need a look: if any point of the grid
lies in the interval, one of these two does.
-/
import ContentProperties.Numeric.Digits
import ContentProperties.Numeric.FloatFormat

namespace ContentProperties.Numeric

/-- A positive number with its interval, all over one denominator. -/
structure Interval where
  /-- Numerator of the number. -/
  num : Nat
  /-- Numerator of the lower end. -/
  low : Nat
  /-- Numerator of the upper end. -/
  high : Nat
  /-- The common denominator. -/
  den : Nat
  /-- Whether the ends belong to the interval. -/
  closed : Bool

/-- The interval of a finite pattern other than zero, in quarters of its
last place: half a place up, and half a place down, or a quarter where
the numbers below lie twice as close. -/
def FloatFormat.interval (F : FloatFormat) (bits : Nat) : Interval :=
  let (m, e) := F.parts bits
  let below := if m = twoTo F.fractionBits ∧ F.minExponent < e then 1 else 2
  let unit := if e < 2 then 1 else twoTo (e - 2).toNat
  let den := if e < 2 then twoTo (2 - e).toNat else 1
  ⟨4 * m * unit, (4 * m - below) * unit, (4 * m + 2) * unit, den,
    m % 2 == 0⟩

/-- Whether `n * unitNum / unitDen` lies in the interval. -/
def Interval.holds (v : Interval) (n unitNum unitDen : Nat) : Bool :=
  let point := n * unitNum * v.den
  let low := v.low * unitDen
  let high := v.high * unitDen
  if v.closed then low ≤ point && point ≤ high
  else low < point && point < high

/-- How many zeros follow the point before the first digit of a fraction
below one; `fuel` bounds the search. -/
def zerosAfterPoint (num den : Nat) : Nat → Nat
  | 0 => 0
  | fuel + 1 =>
      if den ≤ 10 * num then 0
      else 1 + zerosAfterPoint (10 * num) den fuel

/-- The place of the point relative to the first digit: the number lies
below ten to this power and not below a tenth of that. -/
def pointPlace (num den : Nat) : Int :=
  if den ≤ num then (natDigits (num / den)).length
  else -(zerosAfterPoint num den (den.log2 + 1))

/-- Of two neighbouring grid points, the nearer one; `tieUp` says which
one to take half way. -/
def nearer (v : Interval) (n unitNum unitDen : Nat) (tieUp : Nat → Bool) :
    Nat :=
  let twice := 2 * v.num * unitDen
  let middle := (2 * n + 1) * unitNum * v.den
  if twice < middle then n
  else if middle < twice then n + 1
  else if tieUp n then n + 1 else n

/-- The point chosen on the grid of `count` digits, if one lies in the
interval. -/
def onGrid? (v : Interval) (place : Int) (tieUp : Nat → Bool)
    (count : Nat) : Option Nat :=
  let e := place - count
  let unitNum := if e < 0 then 1 else tenTo e.toNat
  let unitDen := if e < 0 then tenTo (-e).toNat else 1
  let n := v.num * unitDen / (unitNum * v.den)
  match v.holds n unitNum unitDen, v.holds (n + 1) unitNum unitDen with
  | true, true => some (nearer v n unitNum unitDen tieUp)
  | true, false => some n
  | false, true => some (n + 1)
  | false, false => none

/-- The first grid that has a point in the interval, from `count` digits
upward, with that point. -/
def firstGrid (v : Interval) (place : Int) (tieUp : Nat → Bool)
    (count : Nat) : Nat → Nat × Nat
  | 0 => (count, v.num / v.den)
  | fuel + 1 =>
      match onGrid? v place tieUp count with
      | some n => (count, n)
      | none => firstGrid v place tieUp (count + 1) fuel

/-- Decimal digits with the place of their point: the number is zero
point these digits times ten to `point`. -/
structure Digits where
  /-- The digits, without zeros at the end. -/
  digits : List Char
  /-- The power of ten. -/
  point : Int

/-- Digits without the zeros at their end. -/
def dropTrailingZeros (cs : List Char) : List Char :=
  (cs.reverse.dropWhile (· == '0')).reverse

/-- The shortest digits of a finite pattern other than zero. Seventeen
digits tell all doubles apart, so the search ends by then. A point that
has grown by a digit moves the place with it. -/
def FloatFormat.shortest (F : FloatFormat) (tieUp : Nat → Bool)
    (bits : Nat) : Digits :=
  let v := F.interval bits
  let place := pointPlace v.num v.den
  let (count, n) := firstGrid v place tieUp 1 17
  let digits := natDigits n
  ⟨dropTrailingZeros digits, place + (digits.length - count)⟩

end ContentProperties.Numeric
