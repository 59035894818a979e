/-
Reading the numbers of JSON. An integer without point and exponent stays
an integer as long as it fits into 64 bits. Everything else becomes a
double, by a short computation that is close to the written number but
not always nearest to it: the digits are gathered in a 64-bit integer
for as long as they fit, the others only move the exponent, and the
result is scaled by powers of ten in double arithmetic.
-/
import ContentProperties.Json.Basic
import ContentProperties.Json.Input
import ContentProperties.Numeric.FloatFormat

namespace ContentProperties.Json.Read

-- ================================================= scaling

/-- The double nearest to a power of ten. -/
def powerOfTen (n : Nat) : Float := Numeric.doubleOfNat (Numeric.tenTo n)

/-- Scales a magnitude by a power of ten, at most 308 places at a time;
none if it overflows. -/
def scale? (x : Float) (exponent : Int) : Option Float :=
  if exponent.natAbs ≤ 308 then
    if 0 ≤ exponent then
      let y := x * powerOfTen exponent.natAbs
      if y.isInf then none else some y
    else some (x / powerOfTen exponent.natAbs)
  else if x == 0.0 then some x
  else if 0 ≤ exponent then none
  else scale? (x / powerOfTen 308) (exponent + 308)
termination_by exponent.natAbs
decreasing_by omega

/-- A double with the given sign. -/
def signed (positive : Bool) (x : Float) : Float := if positive then x else -x

/-- The number of a significand and an exponent. -/
def ofParts (positive : Bool) (significand : Nat) (exponent : Int) :
    Read Json :=
  match scale? (Numeric.doubleOfNat significand) exponent with
  | some x => pure (.double (signed positive x))
  | none => giveUp

-- ================================================= digits

/-- Adds digits to a significand for as long as 64 bits hold it: the
result and how many digits are left over. -/
def gather (significand : Nat) : List UInt8 → Nat × Nat
  | [] => (significand, 0)
  | d :: rest =>
      let more := 10 * significand + (d - byte '0').toNat
      if more < Numeric.twoTo 64 then gather more rest
      else (significand, rest.length + 1)

/-- Takes the digits of an exponent; none as soon as they exceed 31 bits,
without the digits after that. -/
def exponentDigits (acc : Nat) : List UInt8 → Option Nat × List UInt8
  | [] => (some acc, [])
  | d :: rest =>
      if isDigit d then
        let more := 10 * acc + (d - byte '0').toNat
        if more < Numeric.twoTo 31 then exponentDigits more rest
        else (none, rest)
      else (some acc, d :: rest)

/-- Reads the sign and the digits of an exponent: whether it is positive,
and its size unless that exceeds 31 bits. -/
def readExponent : Read (Bool × Option Nat) := do
  skip
  let sign ← look
  let positive := sign ≠ some (byte '-')
  if sign = some (byte '+') ∨ sign = some (byte '-') then skip
  let d ← next
  if !isDigit d then giveUp
  else
    let size ← (fun i =>
      let (size, rest) := exponentDigits (d - byte '0').toNat i.rest
      (some size, ⟨rest, false, i.failsAtEnd⟩) : Read (Option Nat))
    pure (positive, size)

/-- Reads the exponent of a number and yields the number. An exponent
beyond 31 bits makes it zero or too great. -/
def withExponent (positive : Bool) (significand : Nat) (start : Int) :
    Read Json := do
  match ← readExponent with
  | (up, some size) =>
      discard look
      ofParts positive significand (if up then start + size else start - size)
  | (up, none) =>
      if significand ≠ 0 ∧ up then giveUp
      else
        discard (takeWhile isDigit)
        pure (.double (signed positive 0.0))

/-- Whether the byte opens an exponent. -/
def isExponentMark (b : Option UInt8) : Bool :=
  b == some (byte 'e') || b == some (byte 'E')

/-- Reads the fraction of a number, from its point on. -/
def withFraction (positive : Bool) (significand : Nat) (start : Int) :
    Read Json := do
  skip
  let digits ← takeWhile isDigit
  if digits.isEmpty then giveUp
  else
    let (significand, left) := gather significand digits
    let exponent := start - (digits.length - left : Nat)
    if isExponentMark (← look) then withExponent positive significand exponent
    else ofParts positive significand exponent

-- ================================================= numbers

/-- An integer, or minus zero or one beyond 64 bits as a double. -/
def wholeNumber (positive : Bool) (significand : Nat) : Json :=
  if positive then .int significand
  else if 0 < significand ∧ significand ≤ Numeric.twoTo 63 then
    .int (-significand)
  else .double (-(Numeric.doubleOfNat significand))

/-- Takes the digits before the point. After a zero there is none. -/
def wholeDigits : Read (List UInt8) := do
  let first ← next
  if !isDigit first then giveUp
  else if first = byte '0' then
    match ← look with
    | some b => if isDigit b then giveUp else pure [first]
    | none => pure [first]
  else
    let others ← takeWhile isDigit
    pure (first :: others)

/-- Reads a number after its sign. -/
def number (positive : Bool) : Read Json := do
  let (significand, left) := gather 0 (← wholeDigits)
  let following ← look
  if following = some (byte '.') then withFraction positive significand left
  else if isExponentMark following then
    withExponent positive significand left
  else if left = 0 then pure (wholeNumber positive significand)
  else ofParts positive significand left

/-- Passes over a number after its sign, checking only its shape. -/
def skipNumber : Read Unit := do
  discard wholeDigits
  if (← look) = some (byte '.') then
    skip
    if (← takeWhile isDigit).isEmpty then giveUp
  if isExponentMark (← look) then
    discard readExponent
    discard (takeWhile isDigit)

end ContentProperties.Json.Read
