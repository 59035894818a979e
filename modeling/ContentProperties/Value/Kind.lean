/-
Value types: the targets that a caller may ask a value to be converted
to. Each kind of value has a type that it is an instance of; beyond
those there are types for whatever is natural, for anything with a
serialized form, for the stored form, for the property itself and for a
reader of an object stream.
-/
import ContentProperties.Value.Basic

namespace ContentProperties

/-- A type that a value may be asked to have. -/
inductive ValueType where
  /-- No preference. -/
  | unknown
  | string
  | byte
  | short
  | int
  | long
  | float
  | double
  | decimal
  | bool
  | char
  | date
  | calendar
  | zoned
  | binary
  /-- A reader of the object that a binary holds. -/
  | objectStream
  /-- Anything with a serialized form. -/
  | serializable
  /-- An object of the named type. -/
  | object (name : String)
  /-- The value as the repository stores it. -/
  | stored
  /-- The property that holds the value. -/
  | property
  /-- An array with items of the given type. -/
  | array (item : ValueType)
  deriving DecidableEq

namespace ValueType

/-- The type that asks for a value like the given one. An array has the
type of its first item, an empty one no preference. -/
def of : Value → ValueType
  | .byte _ => .byte
  | .short _ => .short
  | .int _ => .int
  | .long _ => .long
  | .float _ => .float
  | .double _ => .double
  | .decimal _ => .decimal
  | .bool _ => .bool
  | .char _ => .char
  | .string _ => .string
  | .date _ => .date
  | .calendar _ => .calendar
  | .zoned _ => .zoned
  | .binary _ => .binary
  | .object o => .object o.typeName
  | .array [] => .array .unknown
  | .array (first :: _) => .array (of first)

/-- Whether the type is one of the numbers. -/
def isNumeric : ValueType → Bool
  | .byte | .short | .int | .long | .float | .double | .decimal => true
  | _ => false

/-- Whether the type is an array. -/
def isArray : ValueType → Bool
  | .array _ => true
  | _ => false

/-- Whether a value has the type as it is. -/
def isInstance : ValueType → Value → Bool
  | .unknown, _ => true
  | .serializable, v => v.isSerializable
  | .object name, .object o => o.typeName == name
  | .object _, _ => false
  | .array item, .array items => items.all item.isInstance
  | .array _, _ => false
  | _, .object _ => false
  | _, .array _ => false
  | t, v => t == of v

/-- The name of the type. -/
def toText : ValueType → String
  | .unknown => "Unknown"
  | .string => "String"
  | .byte => "Byte"
  | .short => "Short"
  | .int => "Int"
  | .long => "Long"
  | .float => "Float"
  | .double => "Double"
  | .decimal => "Decimal"
  | .bool => "Bool"
  | .char => "Char"
  | .date => "Date"
  | .calendar => "Calendar"
  | .zoned => "Zoned"
  | .binary => "Binary"
  | .objectStream => "ObjectStream"
  | .serializable => "Serializable"
  | .object name => "Object<" ++ name ++ ">"
  | .stored => "Stored"
  | .property => "Property"
  | .array item => item.toText ++ "[]"

end ValueType

end ContentProperties
