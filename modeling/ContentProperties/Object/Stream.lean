/-
Object streams: readers that turn the content of a binary back into an
object. Opening checks the header; the object is read afterwards, and
its type is put to the loader, if there is one. A stream holds one
object, but a failed reading may be tried again on what it left.
-/
import ContentProperties.Binary.Basic
import ContentProperties.Object.Envelope

namespace ContentProperties

/-- Decides which types may be read back into objects. -/
abbrev TypeLoader := String → Bool

/-- Why no object could be read. -/
inductive ObjectStreamError where
  /-- The binary could not be read. -/
  | io (cause : IoError)
  /-- The content does not start with the header. -/
  | badHeader
  /-- The content after the header is no envelope. -/
  | malformed
  /-- The loader does not know the type. -/
  | unknownType (name : String)
  deriving DecidableEq

/-- The text of the error. -/
def ObjectStreamError.message : ObjectStreamError → String
  | .io cause => "object stream I/O: " ++ cause.message
  | .badHeader => "not an object stream"
  | .malformed => "malformed object"
  | .unknownType name => "type not found: " ++ name

/-- A reader behind the header of an object stream. -/
structure ObjectStream where
  reader : ByteReader
  loader : Option TypeLoader

namespace ObjectStream

/-- The reader behind the header; it must be there in full. -/
def passHeader (reader : ByteReader) :
    Except ObjectStreamError ByteReader :=
  let size := ObjectValue.streamHeader.length
  if reader.rest.length < size then
    if reader.failsAtEnd then .error (.io .readFailed) else .error .badHeader
  else if reader.rest.take size = ObjectValue.streamHeader then
    .ok ⟨reader.rest.drop size, reader.failsAtEnd⟩
  else .error .badHeader

/-- Opens a binary and checks the header. -/
def ofBinary (b : Binary) (loader : Option TypeLoader) :
    ExceptT ObjectStreamError (StateM Streams) ObjectStream := fun s =>
  match b.openReader s with
  | (.error cause, s) => (.error (.io cause), s)
  | (.ok reader, s) => ((passHeader reader).map (⟨·, loader⟩), s)

/-- Whether the loader, if any, knows the type. -/
def resolves (loader : Option TypeLoader) (name : String) : Bool :=
  match loader with
  | some known => known name
  | none => true

/-- Reads the object, and what is left of the stream. -/
def readObject (stream : ObjectStream) :
    Except ObjectStreamError ObjectValue × ObjectStream :=
  let (parts, input) :=
    ObjectValue.envelope
      ⟨stream.reader.rest, false, stream.reader.failsAtEnd⟩
  let left : ObjectStream :=
    ⟨⟨input.remaining, input.failsAtEnd⟩, stream.loader⟩
  match parts with
  | none => (.error .malformed, left)
  | some (name, data) =>
      if resolves stream.loader name then (.ok ⟨name, some data⟩, left)
      else (.error (.unknownType name), left)

end ObjectStream

end ContentProperties
