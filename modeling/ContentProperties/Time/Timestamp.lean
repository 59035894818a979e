/-
Points in time. A timestamp is an instant, counted in nanoseconds from
the start of 1970 in UTC, together with the offset at which a clock
shows it; an instant alone is shown in UTC. The date that the clock
shows always lies in the years -9999 to 9999. Hence a timestamp near
either end may have no counterpart in UTC, and then the change to UTC
yields nothing.
-/
import ContentProperties.Time.Civil

namespace ContentProperties.Time

-- ================================================= the calendar range

/-- Nanoseconds in a second. -/
def second : Int := 1000000000

/-- Nanoseconds in a millisecond. -/
def millisecond : Int := 1000000

/-- Nanoseconds in a day. -/
def dayLength : Int := 86400 * second

/-- The day on which the count of nanoseconds starts. -/
def epochDay : Int := daysBeforeYear 1970

/-- The first nanosecond that a clock can show. -/
def firstNano : Int := (daysBeforeYear (-9999) - epochDay) * dayLength

/-- The first nanosecond that a clock can no longer show. -/
def endNano : Int := (daysBeforeYear 10000 - epochDay) * dayLength

-- ================================================= offsets

/-- A distance of a clock from UTC, in seconds, positive to the east. It
is below 26 hours. -/
structure Offset where
  seconds : Int
  natAbs_lt : seconds.natAbs < 26 * 3600
  deriving DecidableEq

namespace Offset

/-- No distance. -/
def utc : Offset := ⟨0, by decide⟩

/-- The offset of the given seconds, if it is within the limit. -/
def ofSeconds? (seconds : Int) : Option Offset :=
  if h : seconds.natAbs < 26 * 3600 then some ⟨seconds, h⟩ else none

/-- The offset of hours, minutes and seconds. The first part other than
zero gives its sign to the parts after it. -/
def ofParts? (hours minutes seconds : Int) : Option Offset :=
  if hours.natAbs ≤ 25 ∧ minutes.natAbs ≤ 59 ∧ seconds.natAbs ≤ 59 then
    let sign :=
      if hours ≠ 0 then hours.sign
      else if minutes ≠ 0 then minutes.sign
      else seconds.sign
    ofSeconds?
      (sign * (hours.natAbs * 3600 + minutes.natAbs * 60 + seconds.natAbs))
  else none

end Offset

-- ================================================= timestamps

/-- An instant shown by a clock at an offset from UTC. -/
structure Timestamp where
  /-- The instant, in nanoseconds. -/
  nanos : Int
  offset : Offset
  /-- What the clock shows lies in the calendar. -/
  inCalendar : firstNano ≤ nanos + offset.seconds * second ∧
    nanos + offset.seconds * second < endNano
  deriving DecidableEq

/-- An instant whose date in UTC lies in the calendar. -/
structure Instant where
  /-- The instant, in nanoseconds. -/
  nanos : Int
  /-- It can be shown in UTC. -/
  inCalendar : firstNano ≤ nanos ∧ nanos < endNano
  deriving DecidableEq

namespace Timestamp

/-- The timestamp of an instant at an offset, if a clock can show it. -/
def of? (nanos : Int) (offset : Offset) : Option Timestamp :=
  if h : firstNano ≤ nanos + offset.seconds * second ∧
      nanos + offset.seconds * second < endNano then
    some ⟨nanos, offset, h⟩
  else none

/-- What the clock shows, as nanoseconds on a clock of its own. -/
def localNanos (t : Timestamp) : Int := t.nanos + t.offset.seconds * second

/-- Milliseconds of the instant, rounded down. -/
def millis (t : Timestamp) : Int := t.nanos / millisecond

/-- Two timestamps are equal when their instants are, wherever the
clocks stand. -/
def beq (a b : Timestamp) : Bool := a.nanos == b.nanos

instance : BEq Timestamp := ⟨beq⟩

/-- The instant alone; none if its date in UTC leaves the calendar. -/
def toInstant? (t : Timestamp) : Option Instant :=
  if h : firstNano ≤ t.nanos ∧ t.nanos < endNano then some ⟨t.nanos, h⟩
  else none

end Timestamp

namespace Instant

/-- The instant of the given nanoseconds, if it is in the calendar. -/
def of? (nanos : Int) : Option Instant :=
  if h : firstNano ≤ nanos ∧ nanos < endNano then some ⟨nanos, h⟩
  else none

/-- The instant of the given milliseconds, if it is in the calendar. -/
def ofMillis? (millis : Int) : Option Instant := of? (millis * millisecond)

/-- The instant as a clock in UTC shows it. -/
def toTimestamp (i : Instant) : Timestamp :=
  ⟨i.nanos, Offset.utc, by simpa [Offset.utc] using i.inCalendar⟩

/-- Milliseconds of the instant, rounded down. -/
def millis (i : Instant) : Int := i.nanos / millisecond

instance : BEq Instant := ⟨fun a b => a.nanos == b.nanos⟩

end Instant

end ContentProperties.Time
