/-
Binary content. A binary is a handle on a source, and two binaries are
equal when they share their source, whatever it holds. Some sources can
be opened again and again; a one-shot stream is used up by its first
opening. Which streams are used up, and which names are still free for
new sources, is the state that all binaries share.

Content of a claimed length is read into a buffer of that length, which
breaks the call off if there can be no such buffer. A failure is an
answer, which the caller may handle or pass over; a call that is broken
off has no answer, and ends everything that it is part of.
-/
import ContentProperties.Numeric.Digits

namespace ContentProperties

-- ================================================= calls broken off

/-- Why a call was broken off. -/
inductive Abort where
  /-- A timestamp was asked for its instant in UTC, whose date leaves the
  calendar. -/
  | calendarOverflow
  /-- A buffer was asked for that is larger than any can be. -/
  | bufferOverflow
  deriving DecidableEq

/-- The text of the cause. -/
def Abort.message : Abort → String
  | .calendarOverflow => "the date in UTC leaves the calendar"
  | .bufferOverflow => "the buffer exceeds the address space"

-- ================================================= sources

/-- Why content could not be read. -/
inductive IoError where
  /-- A one-shot stream was opened a second time. -/
  | alreadyConsumed
  /-- The source refused to open. -/
  | openFailed
  /-- The source broke off while it was read. -/
  | readFailed
  | other (text : String)
  deriving DecidableEq

/-- The text of the error. -/
def IoError.message : IoError → String
  | .alreadyConsumed => "binary stream already consumed"
  | .openFailed => "open failed"
  | .readFailed => "read failed"
  | .other text => text

/-- Where content comes from. -/
inductive Source where
  /-- Bytes in memory, to be opened any number of times. -/
  | buffered (bytes : List UInt8)
  /-- A stream to be opened once, of a length not known in advance. -/
  | oneShot (bytes : List UInt8)
  /-- A provider with a length it claims, which need not be true. It may
  refuse to open, or deliver its bytes and then fail instead of
  ending. -/
  | provided (claimed : Option Nat) (bytes : List UInt8)
      (failsToOpen failsAtEnd : Bool)
  deriving DecidableEq

/-- The length that is known without reading. -/
def Source.length? : Source → Option Nat
  | .buffered bytes => some bytes.length
  | .oneShot _ => none
  | .provided claimed _ _ _ => claimed

/-- The most bytes that a buffer can hold: as many as half the addresses
of 64 bits. -/
def bufferLimit : Nat := 9223372036854775807

/-- Whether there can be a buffer of the length that is claimed. Content
in memory has one already, and without a claim the buffer grows as
needed. -/
def Source.fitsBuffer : Source → Bool
  | .buffered _ => true
  | .oneShot _ => true
  | .provided claimed _ _ _ => claimed.getD 0 ≤ bufferLimit

-- ================================================= handles

/-- A handle on a source. -/
structure Binary where
  /-- The name that tells the source from all others. -/
  id : Nat
  source : Source
  deriving DecidableEq

/-- Binaries are equal when they share their source. -/
instance : BEq Binary := ⟨fun a b => a.id == b.id⟩

/-- What all sources share. -/
structure Streams where
  /-- The first name not yet given to a source. -/
  nextId : Nat
  /-- The streams that were opened. -/
  consumed : List Nat

/-- No source has been named. -/
def Streams.empty : Streams := ⟨0, []⟩

/-- Content being read: the bytes to come, and whether the source fails
when it runs out of them. -/
structure ByteReader where
  rest : List UInt8
  failsAtEnd : Bool

/-- What is read up to the end. -/
def ByteReader.drain (r : ByteReader) : Except IoError (List UInt8) :=
  if r.failsAtEnd then .error .readFailed else .ok r.rest

namespace Binary

/-- A handle on a new source. -/
def create (source : Source) : StateM Streams Binary := fun s =>
  (⟨s.nextId, source⟩, ⟨s.nextId + 1, s.consumed⟩)

/-- The length that is known without reading. -/
def length? (b : Binary) : Option Nat := b.source.length?

/-- Opens the content at its start. -/
def openReader (b : Binary) : ExceptT IoError (StateM Streams) ByteReader :=
  fun s =>
    match b.source with
    | .buffered bytes => (.ok ⟨bytes, false⟩, s)
    | .oneShot bytes =>
        if s.consumed.contains b.id then (.error .alreadyConsumed, s)
        else (.ok ⟨bytes, false⟩, ⟨s.nextId, b.id :: s.consumed⟩)
    | .provided _ bytes failsToOpen failsAtEnd =>
        if failsToOpen then (.error .openFailed, s)
        else (.ok ⟨bytes, failsAtEnd⟩, s)

/-- Reads the whole content. -/
def readAll (b : Binary) : ExceptT IoError (StateM Streams) (List UInt8) := do
  let reader ← b.openReader
  match reader.drain with
  | .ok bytes => pure bytes
  | .error e => throw e

/-- Reads the whole content into a buffer of the claimed length. Without
such a buffer the content is not even opened. -/
def readBuffered (b : Binary) :
    ExceptT Abort (StateM Streams) (Except IoError (List UInt8)) := fun s =>
  if b.source.fitsBuffer then
    let (r, s) := b.readAll s
    (.ok r, s)
  else (.error .bufferOverflow, s)

/-- The text that stands for a binary among values: its length only. -/
def toText (b : Binary) : String :=
  match b.length? with
  | some n => "binary(len=" ++ Numeric.intText n ++ ")"
  | none => "binary(stream)"

end Binary

end ContentProperties
