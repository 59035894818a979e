/-
The canonical text of a timestamp: date, time with milliseconds, and
either `Z` or the offset in hours and minutes. Writing cuts what is
below a millisecond and the seconds of the offset. Reading asks for
exactly this shape, with two liberties: a year may have a plus sign, and
each part of the offset is read as an integer of two characters, which
may be a sign and a digit.
-/
import ContentProperties.Numeric.Digits
import ContentProperties.Time.Timestamp

namespace ContentProperties.Time

open Numeric

-- ================================================= writing

/-- A natural number padded with zeros up to `width` digits. -/
def paddedDigits (width n : Nat) : List Char :=
  let digits := natDigits n
  List.replicate (width - digits.length) '0' ++ digits

/-- A year in four digits, with a minus sign before year zero. -/
def yearChars (year : Int) : List Char :=
  if year < 0 then '-' :: paddedDigits 4 year.natAbs
  else paddedDigits 4 year.natAbs

/-- The date and time of a clock. -/
def localChars (localNanos : Int) : List Char :=
  let date := CivilDate.ofDay (localNanos / dayLength + epochDay)
  let millis := (localNanos % dayLength / millisecond).toNat
  let seconds := millis / 1000
  yearChars date.year ++ '-' :: paddedDigits 2 date.month ++
    '-' :: paddedDigits 2 date.day ++ 'T' :: paddedDigits 2 (seconds / 3600) ++
    ':' :: paddedDigits 2 (seconds / 60 % 60) ++
    ':' :: paddedDigits 2 (seconds % 60) ++
    '.' :: paddedDigits 3 (millis % 1000)

/-- An offset: `Z` for none at all, else its sign, hours and minutes. -/
def offsetChars (offset : Offset) : List Char :=
  let size := offset.seconds.natAbs
  if offset.seconds = 0 then ['Z']
  else
    (if offset.seconds < 0 then '-' else '+') ::
      paddedDigits 2 (size / 3600) ++
      ':' :: paddedDigits 2 (size / 60 % 60)

/-- The text of a timestamp. -/
def Timestamp.toText (t : Timestamp) : String :=
  String.ofList (localChars t.localNanos ++ offsetChars t.offset)

/-- The text of an instant, shown in UTC. -/
def Instant.toText (i : Instant) : String := i.toTimestamp.toText

-- ================================================= reading

/-- Reads exactly `count` digits. -/
def takeDigits? (count : Nat) (cs : List Char) : Option (Nat × List Char) :=
  let digits := cs.take count
  if digits.length = count then
    (readNat? digits).map fun n => (n, cs.drop count)
  else none

/-- Reads one given character. -/
def takeChar? (c : Char) : List Char → Option (List Char)
  | [] => none
  | d :: rest => if d = c then some rest else none

/-- Reads a year: four digits, which may have a sign. -/
def takeYear? : List Char → Option (Int × List Char)
  | '-' :: cs => (takeDigits? 4 cs).map fun (n, rest) => (-(n : Int), rest)
  | '+' :: cs => (takeDigits? 4 cs).map fun (n, rest) => ((n : Int), rest)
  | cs => (takeDigits? 4 cs).map fun (n, rest) => ((n : Int), rest)

/-- Reads a date and a time to the end of the text, as what a clock
shows. -/
def readLocal? (cs : List Char) : Option Int := do
  let (year, cs) ← takeYear? cs
  let (month, cs) ← takeDigits? 2 (← takeChar? '-' cs)
  let (day, cs) ← takeDigits? 2 (← takeChar? '-' cs)
  let (hour, cs) ← takeDigits? 2 (← takeChar? 'T' cs)
  let (minute, cs) ← takeDigits? 2 (← takeChar? ':' cs)
  let (sec, cs) ← takeDigits? 2 (← takeChar? ':' cs)
  let (millis, cs) ← takeDigits? 3 (← takeChar? '.' cs)
  let date : CivilDate := ⟨year, month, day⟩
  if cs.isEmpty && date.isValid && hour < 24 && minute < 60 && sec < 60 then
    some <| (date.toDay - epochDay) * dayLength +
      ((hour * 3600 + minute * 60 + sec) * second + millis * millisecond)
  else none

/-- Reads an offset of six characters. -/
def readOffset? : List Char → Option Offset
  | [sign, h₁, h₂, ':', m₁, m₂] => do
      let s : Int ←
        if sign = '+' then some 1 else if sign = '-' then some (-1) else none
      Offset.ofParts? (s * (← readInt? [h₁, h₂])) (s * (← readInt? [m₁, m₂])) 0
  | _ => none

/-- Reads the text of a timestamp. The offset is cut off at the end, and
the rest must be a date and a time. -/
def readTimestamp? (text : String) : Option Timestamp := do
  let cs := text.toList
  let cut := if cs.getLast? = some 'Z' then 1 else 6
  let front := cs.take (cs.length - cut)
  let offset ←
    if cut = 1 then some Offset.utc
    else readOffset? (cs.drop (cs.length - cut))
  let shown ← readLocal? front
  Timestamp.of? (shown - offset.seconds * second) offset

end ContentProperties.Time
