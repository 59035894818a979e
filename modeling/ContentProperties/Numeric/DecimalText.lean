/-
The text of decimals. Written are all digits with the point in its
place. Read are plain digits with at most one point, where underscores
may separate digits, or such a number followed by a decimal exponent.
Places beyond the limits of a decimal are rounded half up on the first
of them; an integer part beyond the limits is refused. A separator right
after the last place there can be counts as such a place, a zero, if the
number is short, and as nothing if it is long.
-/
import ContentProperties.Numeric.Decimal
import ContentProperties.Numeric.Digits

namespace ContentProperties.Decimal

open Numeric

-- ================================================= writing

/-- The digits of a magnitude with `scale` of them after the point. -/
def pointedDigits (magnitude scale : Nat) : List Char :=
  if scale = 0 then natDigits magnitude
  else
    let fraction := natDigits (magnitude % tenTo scale)
    natDigits (magnitude / tenTo scale) ++
      '.' :: List.replicate (scale - fraction.length) '0' ++ fraction

/-- The text of a decimal, with all its places. -/
def toText (a : Decimal) : String :=
  let digits := pointedDigits a.magnitude a.scale
  String.ofList (if a.negative then '-' :: digits else digits)

-- ================================================= reading

/-- A decimal being read. -/
structure Scan where
  /-- The digits so far. -/
  magnitude : Nat
  /-- How many of them stand after the point. -/
  scale : Nat
  /-- Whether the point has been read. -/
  pointed : Bool
  /-- Whether a digit has been read. -/
  begun : Bool

/-- Whether all the places there can be have been read. -/
def Scan.isFull (s : Scan) : Bool := s.pointed && s.scale == 28

/-- The magnitude up to which a further digit is sure to fit 64 bits,
with some room to spare. -/
def wordLimit : Nat := 1844674407370954906

/-- Whether the number stays within 64 bits, going by the digits before
its last. -/
def Scan.isShort (s : Scan) : Bool := s.magnitude / 10 < wordLimit

/-- The magnitude and the places after dropping further digits, of which
`next` is the first. If rounding up leaves the range, the last place is
given up too. -/
def roundUp? (magnitude scale next : Nat) : Option (Nat × Nat) :=
  if next < 5 then some (magnitude, scale)
  else if magnitude + 1 < twoTo 96 then some (magnitude + 1, scale)
  else if scale = 0 then none
  else some ((magnitude + 5) / 10, scale - 1)

/-- Whether only digits and separators are left. -/
def onlyDigits (cs : List Char) : Bool :=
  cs.all fun c => isDigit c || c == '_'

/-- Reads the digits of a magnitude with its places. Separators are
passed over, except where a short number has all its places: there a
separator stands for a dropped zero. -/
def scan? (s : Scan) : List Char → Option (Nat × Nat)
  | [] => if s.begun then some (s.magnitude, s.scale) else none
  | c :: rest =>
      if c = '_' then
        if s.isFull && s.isShort then
          if onlyDigits rest then some (s.magnitude, s.scale) else none
        else if s.begun then scan? s rest
        else none
      else if c = '.' then
        if s.pointed then none
        else scan? ⟨s.magnitude, s.scale, true, s.begun⟩ rest
      else
        match digit? c with
        | none => none
        | some d =>
            let next := 10 * s.magnitude + d
            if !s.isFull && next < twoTo 96 then
              scan? ⟨next, if s.pointed then s.scale + 1 else 0,
                s.pointed, true⟩ rest
            else if s.pointed && onlyDigits rest then
              roundUp? s.magnitude s.scale d
            else none

/-- Reads plain digits after an optional sign, which a zero loses. -/
def readPlain? (cs : List Char) : Option Decimal :=
  let (negative, digits) :=
    match cs with
    | '-' :: rest => (true, rest)
    | '+' :: rest => (false, rest)
    | _ => (false, cs)
  match scan? ⟨0, 0, false, false⟩ digits with
  | none => none
  | some (magnitude, scale) =>
      of? (negative && magnitude != 0) magnitude scale

/-- A magnitude without its last places, rounded half up. -/
def dropPlaces (magnitude count : Nat) : Nat :=
  (2 * magnitude / tenTo count + 1) / 2

/-- The decimal divided by a power of ten. The point moves, and what would
stand beyond the last place there can be is rounded half up. The sign
stays, even if only zeros are left. -/
def divideTen? (a : Decimal) (exponent : Nat) : Option Decimal :=
  let places := a.scale + exponent
  if places ≤ 28 then of? a.negative a.magnitude places
  else of? a.negative (dropPlaces a.magnitude (places - 28)) 28

/-- The decimal times a power of ten. An exponent up to the number of
places only moves the point; a greater one needs more digits, after
which no places are left. -/
def timesTen? (a : Decimal) (exponent : Nat) : Option Decimal :=
  if exponent ≤ a.scale then of? a.negative a.magnitude (a.scale - exponent)
  else of? a.negative (a.magnitude * tenTo (exponent - a.scale)) 0

/-- The decimal shifted by an exponent, of which those beyond 28 are
refused either way. -/
def shift? (a : Decimal) (negative : Bool) (exponent : Nat) :
    Option Decimal :=
  if 28 < exponent then none
  else if negative then a.divideTen? exponent
  else a.timesTen? exponent

/-- Whether the character separates a number from its exponent. -/
def isExponentMark (c : Char) : Bool := c == 'e' || c == 'E'

/-- Reads plain digits followed by an exponent. -/
def readScientific? (cs : List Char) : Option Decimal :=
  match cs.dropWhile (!isExponentMark ·) with
  | [] => none
  | _ :: exponent => do
      let base ← readPlain? (cs.takeWhile (!isExponentMark ·))
      match exponent with
      | '-' :: digits => base.shift? true (← readUnsigned? digits)
      | digits => base.shift? false (← readUnsigned? digits)

/-- The decimal that a text writes. -/
def ofText? (s : String) : Option Decimal :=
  readPlain? s.toList <|> readScientific? s.toList

end ContentProperties.Decimal
