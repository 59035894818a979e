/-
Conversions between scalars. What a conversion does depends on the
source first: numbers are narrowed, texts are parsed, timestamps count
as their milliseconds. Values that are none of these, characters among
them, are converted as their text. Narrowing an integer keeps its low
bits; a text is never narrowed, it must fit.
-/
import ContentProperties.Text.Quoted
import ContentProperties.Value.Basic

namespace ContentProperties

open Time

-- ================================================= failures

/-- Why a scalar could not be converted. -/
inductive ConversionError where
  /-- The text does not write a value of the target. -/
  | parse (input target : String)
  /-- The milliseconds lie outside the calendar. -/
  | outOfRange (millis : Int)
  deriving DecidableEq

/-- The text of the error. -/
def ConversionError.message : ConversionError → String
  | .parse input target =>
      "cannot parse " ++ Text.quoted input ++ " as " ++ target
  | .outOfRange millis =>
      "timestamp out of range: " ++ Numeric.intText millis ++ " ms"

/-- The outcome of a conversion. -/
abbrev Conversion (α : Type) := Except ConversionError α

-- ================================================= numbers

/-- A source that is a number. -/
inductive Number where
  | byte (v : Int8)
  | short (v : Int16)
  | int (v : Int32)
  | long (v : Int64)
  | float (v : Float32)
  | double (v : Float)
  | decimal (v : Decimal)

namespace Number

/-- The number without its fraction in 64 bits. A floating-point number
out of range becomes the nearest bound; other numbers wrap. -/
def toLong : Number → Int64
  | .byte v => v.toInt64
  | .short v => v.toInt64
  | .int v => v.toInt64
  | .long v => v
  | .float v => v.toInt64
  | .double v => v.toInt64
  | .decimal v => Int64.ofInt v.truncate

/-- The number without its fraction in 32 bits, by the same rules. -/
def toInt : Number → Int32
  | .float v => v.toInt32
  | .double v => v.toInt32
  | n => n.toLong.toInt32

/-- The number as a double. -/
def toDouble : Number → Float
  | .float v => v.toFloat
  | .double v => v
  | .decimal v => v.toDouble
  | n => n.toLong.toFloat

/-- The text of the number. -/
def toText : Number → String
  | .byte v => Numeric.intText v.toInt
  | .short v => Numeric.intText v.toInt
  | .int v => Numeric.intText v.toInt
  | .long v => Numeric.intText v.toInt
  | .float v => Numeric.singleText v
  | .double v => Numeric.doubleText v
  | .decimal v => v.toText

/-- Whether the number is other than zero. -/
def isNonzero : Number → Bool
  | .float v => v != 0.0
  | .double v => v != 0.0
  | .decimal v => !v.isZero
  | n => n.toLong != 0

end Number

-- ================================================= converters

/-- A source to convert from. -/
inductive Converter where
  | number (n : Number)
  | boolean (b : Bool)
  /-- A text, or the text of a value without a converter of its own. -/
  | text (s : String)
  | date (i : Instant)
  | calendar (t : Timestamp)
  | zoned (t : Timestamp)

namespace Converter

/-- The source that a value is. -/
def of : Value → Converter
  | .byte v => .number (.byte v)
  | .short v => .number (.short v)
  | .int v => .number (.int v)
  | .long v => .number (.long v)
  | .float v => .number (.float v)
  | .double v => .number (.double v)
  | .decimal v => .number (.decimal v)
  | .bool v => .boolean v
  | .string v => .text v
  | .date v => .date v
  | .calendar v => .calendar v
  | .zoned v => .zoned v
  | v => .text v.toText

/-- The name of the kind of source. -/
def kindName : Converter → String
  | .number _ => "Number"
  | .boolean _ => "Boolean"
  | .text _ => "Text"
  | .date _ => "Date"
  | .calendar _ => "Calendar"
  | .zoned _ => "Zoned"

/-- What a reading of a text yields, or the error that names the text and
the target. -/
def parsed {α : Type} (text target : String) (result : Option α) :
    Conversion α :=
  match result with
  | some a => .ok a
  | none => .error (.parse text target)

/-- The source as a number, or else its text. A truth value is zero or
one, and a timestamp is its milliseconds. -/
def numberOrText : Converter → Number ⊕ String
  | .number n => .inl n
  | .boolean b => .inl (.int (if b then 1 else 0))
  | .date i => .inl (.long (Int64.ofInt i.millis))
  | .calendar t => .inl (.long (Int64.ofInt t.millis))
  | .zoned t => .inl (.long (Int64.ofInt t.millis))
  | .text s => .inr s

-- ================================================= integers

/-- To a 64-bit integer. -/
def toLong (c : Converter) : Conversion Int64 :=
  match c.numberOrText with
  | .inl n => .ok n.toLong
  | .inr s =>
      parsed s "long" <|
        (Numeric.readIntIn? Int64.minValue.toInt Int64.maxValue.toInt s).map
          Int64.ofInt

/-- To a 32-bit integer. -/
def toInt (c : Converter) : Conversion Int32 :=
  match c.numberOrText with
  | .inl n => .ok n.toInt
  | .inr s =>
      parsed s "int" <|
        (Numeric.readIntIn? Int32.minValue.toInt Int32.maxValue.toInt s).map
          Int32.ofInt

/-- To a 16-bit integer; numbers pass through 32 bits. -/
def toShort (c : Converter) : Conversion Int16 :=
  match c.numberOrText with
  | .inl n => .ok n.toInt.toInt16
  | .inr s =>
      parsed s "short" <|
        (Numeric.readIntIn? Int16.minValue.toInt Int16.maxValue.toInt s).map
          Int16.ofInt

/-- To an 8-bit integer; numbers pass through 32 bits. -/
def toByte (c : Converter) : Conversion Int8 :=
  match c.numberOrText with
  | .inl n => .ok n.toInt.toInt8
  | .inr s =>
      parsed s "byte" <|
        (Numeric.readIntIn? Int8.minValue.toInt Int8.maxValue.toInt s).map
          Int8.ofInt

-- ================================================= fractions

/-- The text without the blanks at its ends. -/
def trimmed (s : String) : String := String.ofList (Text.trimChars s.toList)

/-- To a double; a text may have blanks at its ends. -/
def toDouble (c : Converter) : Conversion Float :=
  match c.numberOrText with
  | .inl n => .ok n.toDouble
  | .inr s =>
      parsed (trimmed s) "double" (Numeric.readDouble? (trimmed s).toList)

/-- To single precision; a text may have blanks at its ends, and other
numbers pass through a double. -/
def toFloat (c : Converter) : Conversion Float32 :=
  match c.numberOrText with
  | .inl (.float v) => .ok v
  | .inl n => .ok n.toDouble.toFloat32
  | .inr s =>
      parsed (trimmed s) "float" (Numeric.readSingle? (trimmed s).toList)

/-- To a decimal. A floating-point number is converted by its text. -/
def toDecimal (c : Converter) : Conversion Decimal :=
  match c.numberOrText with
  | .inl (.decimal v) => .ok v
  | .inl (.float v) => ofText (Number.float v).toText
  | .inl (.double v) => ofText (Number.double v).toText
  | .inl n => .ok (Decimal.ofInt64 n.toLong)
  | .inr s => ofText s
where
  ofText (s : String) : Conversion Decimal :=
    parsed s "decimal" (Decimal.ofText? s)

-- ================================================= truth and text

/-- To a truth value: a text only by the word `true` in any case, a
number by being other than zero. -/
def toBool (c : Converter) : Conversion Bool :=
  match c.numberOrText with
  | .inl n => .ok n.isNonzero
  | .inr s =>
      .ok (Numeric.lowerChars s.toList = ['t', 'r', 'u', 'e'] : Bool)

/-- To text. -/
def toText : Converter → String
  | .number n => n.toText
  | .boolean b => Value.boolText b
  | .text s => s
  | .date i => i.toText
  | .calendar t => t.toText
  | .zoned t => t.toText

/-- To a character: the text must be exactly one. -/
def toChar (c : Converter) : Conversion Char :=
  parsed c.toText "char" <|
    match c.toText.toList with
    | [ch] => some ch
    | _ => none

-- ================================================= time

/-- The timestamp in UTC of milliseconds. -/
def ofMillis (millis : Int) : Conversion Instant :=
  match Instant.ofMillis? millis with
  | some i => .ok i
  | none => .error (.outOfRange millis)

/-- To a timestamp. A text must have the canonical form, a number counts
milliseconds in UTC. -/
def toCalendar (c : Converter) : Conversion Timestamp :=
  match c with
  | .text s => parsed s "timestamp" (readTimestamp? s)
  | .date i => .ok i.toTimestamp
  | .calendar t => .ok t
  | .zoned t => .ok t
  | .number n => (ofMillis n.toLong.toInt).map Instant.toTimestamp
  | .boolean b =>
      (ofMillis (if b then 1 else 0)).map Instant.toTimestamp

/-- To a timestamp in a zone. -/
def toZoned (c : Converter) : Conversion Timestamp := c.toCalendar

/-- To an instant: the timestamp, changed to UTC. If it has no counterpart
there, the conversion is broken off. -/
def toDate (c : Converter) : Except Abort (Conversion Instant) :=
  match c.toCalendar with
  | .error e => .ok (.error e)
  | .ok t =>
      match t.toInstant? with
      | some i => .ok (.ok i)
      | none => .error .calendarOverflow

end Converter

end ContentProperties
