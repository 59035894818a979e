/-
Objects among values. A serializable object carries its data and can be
stored; an opaque one is no more than the name of its type.
-/
import ContentProperties.Json.Printer
import ContentProperties.Text.Utf8

namespace ContentProperties

/-- An object of a named type, with its data if it has a serialized
form. -/
structure ObjectValue where
  typeName : String
  payload : Option Json

namespace ObjectValue

/-- Objects are equal when their types and their data are. -/
instance : BEq ObjectValue :=
  ⟨fun a b => a.typeName == b.typeName && a.payload == b.payload⟩

/-- Whether the object has a serialized form. -/
def isSerializable (o : ObjectValue) : Bool := o.payload.isSome

/-- The text of an object among values. -/
def toText (o : ObjectValue) : String :=
  match o.payload with
  | some data => o.typeName ++ data.toText
  | none => o.typeName ++ "(opaque)"

-- ================================================= the stream form

/-- The bytes that open every object stream. -/
def streamHeader : List UInt8 := [0xac, 0xed, 0x00, 0x01]

/-- The name of the envelope field that holds the type. -/
def typeField : String := "type"

/-- The name of the envelope field that holds the data. -/
def dataField : String := "data"

/-- The characters of the envelope around the data: the type first. -/
def envelopeChars (typeName : String) (data : Json) : List Char :=
  '\x7b' :: Json.stringChars typeField ++ ':' :: Json.stringChars typeName ++
    ',' :: Json.stringChars dataField ++ ':' :: data.chars ++ ['\x7d']

/-- The object as a stream: the header, and then an envelope of its type
and data. An opaque object has none. -/
def streamBytes? (o : ObjectValue) : Option (List UInt8) :=
  o.payload.map fun data =>
    streamHeader ++
      Text.utf8Bytes (String.ofList (envelopeChars o.typeName data))

end ObjectValue

end ContentProperties
