/-
The text of floating-point numbers. Written are the shortest digits, in
a layout that says where plain notation ends. Read is any decimal
number, with or without a point and an exponent, to the nearest
representable one, and the names of infinity and of what is not a
number.
-/
import ContentProperties.Numeric.Shortest

namespace ContentProperties.Numeric

-- ================================================= layouts

/-- How digits are laid out. -/
structure Layout where
  /-- The least power of ten written in plain notation. -/
  plainFrom : Int
  /-- The first power of ten no longer written in plain notation. -/
  plainBelow : Int
  /-- Whether a positive exponent has a plus sign. -/
  plusSign : Bool
  /-- Which of two equally near digit strings is taken: whether to go up
  from the lower one. -/
  tieUp : Nat → Bool

/-- Values show numbers from `1e-4` up to below `1e16` in plain notation,
exponents without a plus, and of two equally near texts the greater. -/
def valueLayout : Layout := ⟨-4, 16, false, fun _ => true⟩

/-- Plain notation, with at least one digit on either side of the
point. -/
def plainChars (d : Digits) : List Char :=
  let count : Int := d.digits.length
  if d.point ≤ 0 then
    ['0', '.'] ++ List.replicate (-d.point).toNat '0' ++ d.digits
  else if count ≤ d.point then
    d.digits ++ List.replicate (d.point - count).toNat '0' ++ ['.', '0']
  else d.digits.take d.point.toNat ++ '.' :: d.digits.drop d.point.toNat

/-- Scientific notation: one digit, the others after a point, and the
exponent. -/
def scientificChars (plusSign : Bool) (d : Digits) : List Char :=
  let mantissa :=
    match d.digits with
    | first :: second :: others => first :: '.' :: second :: others
    | few => few
  let exponent := d.point - 1
  let plus := if plusSign && 0 ≤ exponent then ['+'] else []
  mantissa ++ 'e' :: plus ++ intDigits exponent

/-- Digits in the notation that the layout chooses. -/
def Layout.chars (layout : Layout) (d : Digits) : List Char :=
  if layout.plainFrom < d.point && d.point ≤ layout.plainBelow then
    plainChars d
  else scientificChars layout.plusSign d

/-- The text of a pattern whose sign is given apart. -/
def FloatFormat.text (F : FloatFormat) (layout : Layout)
    (negative : Bool) (bits : Nat) : String :=
  if F.infinity < bits then "NaN"
  else
    let body :=
      if bits = F.infinity then ['i', 'n', 'f']
      else if bits = 0 then ['0', '.', '0']
      else layout.chars (F.shortest layout.tieUp bits)
    String.ofList (if negative then '-' :: body else body)

/-- The text of a double. -/
def doubleTextIn (layout : Layout) (x : Float) : String :=
  let bits := x.toBits.toNat
  FloatFormat.double.text layout (twoTo 63 ≤ bits) (bits % twoTo 63)

/-- The text of a double among values. -/
def doubleText (x : Float) : String := doubleTextIn valueLayout x

/-- The text of a single-precision number among values. -/
def singleText (x : Float32) : String :=
  let bits := x.toBits.toNat
  FloatFormat.single.text valueLayout (twoTo 31 ≤ bits) (bits % twoTo 31)

-- ================================================= reading

/-- A number read from text. -/
inductive Reading where
  /-- An integer times a power of ten. -/
  | number (coefficient : Nat) (exponent : Int)
  | infinity
  | notANumber

/-- The pattern nearest to an integer times a power of ten. Exponents
far outside every range are settled before the power is computed. -/
def FloatFormat.ofScientific (F : FloatFormat) (coefficient : Nat)
    (exponent : Int) : Nat :=
  if coefficient = 0 then 0
  else if 400 < exponent then F.infinity
  else if exponent + (natDigits coefficient).length < -400 then 0
  else if exponent < 0 then
    F.nearest coefficient (tenTo (-exponent).toNat)
  else F.nearest (coefficient * tenTo exponent.toNat) 1

/-- The pattern that a reading stands for. -/
def FloatFormat.ofReading (F : FloatFormat) : Reading → Nat
  | .number coefficient exponent => F.ofScientific coefficient exponent
  | .infinity => F.infinity
  | .notANumber => F.quietNaN

/-- Lower-case ASCII letters for upper-case ones. -/
def lowerChars (cs : List Char) : List Char := cs.map Char.toLower

/-- The exponent after a number, zero if nothing follows. -/
def readExponent? : List Char → Option Int
  | [] => some 0
  | c :: rest => if c == 'e' || c == 'E' then readInt? rest else none

/-- Digits with an optional point, at least one digit in all, and an
optional exponent. -/
def readNumber? (cs : List Char) : Option Reading :=
  let whole := cs.takeWhile isDigit
  let afterWhole := cs.dropWhile isDigit
  let (fraction, rest) :=
    match afterWhole with
    | '.' :: more => (more.takeWhile isDigit, more.dropWhile isDigit)
    | _ => ([], afterWhole)
  match readNat? (whole ++ fraction), readExponent? rest with
  | some coefficient, some exponent =>
      some (.number coefficient (exponent - fraction.length))
  | _, _ => none

/-- A number without its sign. -/
def readUnsignedReal? (cs : List Char) : Option Reading :=
  let name := lowerChars cs
  if name = ['i', 'n', 'f'] ∨ name = ['i', 'n', 'f', 'i', 'n', 'i', 't', 'y']
  then some .infinity
  else if name = ['n', 'a', 'n'] then some .notANumber
  else readNumber? cs

/-- A number with an optional sign: whether it is negative, and what
follows. -/
def readReal? : List Char → Option (Bool × Reading)
  | '-' :: cs => (readUnsignedReal? cs).map (true, ·)
  | '+' :: cs => (readUnsignedReal? cs).map (false, ·)
  | cs => (readUnsignedReal? cs).map (false, ·)

/-- The double nearest to the number that a text writes. -/
def readDouble? (cs : List Char) : Option Float :=
  (readReal? cs).map fun (negative, r) =>
    Float.ofBits <| UInt64.ofNat <|
      FloatFormat.double.ofReading r + if negative then twoTo 63 else 0

/-- The single-precision number nearest to the one a text writes. -/
def readSingle? (cs : List Char) : Option Float32 :=
  (readReal? cs).map fun (negative, r) =>
    Float32.ofBits <| UInt32.ofNat <|
      FloatFormat.single.ofReading r + if negative then twoTo 31 else 0

end ContentProperties.Numeric
