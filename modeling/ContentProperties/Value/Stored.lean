/-
Stored values: the smaller set of kinds that a repository keeps. Every
integer is stored as a long, both floating-point kinds as a double, a
character as a string and every timestamp with its offset.
-/
import ContentProperties.Value.Basic

namespace ContentProperties

open Time

/-- The type that a property declares for what it stores. -/
inductive PropertyType where
  | string
  | binary
  | long
  | double
  | date
  | boolean
  | name
  | path
  | reference
  | weakReference
  | uri
  | decimal
  deriving DecidableEq

/-- The name of the type in node type definitions. -/
def PropertyType.toText : PropertyType → String
  | .string => "String"
  | .binary => "Binary"
  | .long => "Long"
  | .double => "Double"
  | .date => "Date"
  | .boolean => "Boolean"
  | .name => "Name"
  | .path => "Path"
  | .reference => "Reference"
  | .weakReference => "WeakReference"
  | .uri => "URI"
  | .decimal => "Decimal"

/-- A value as a repository keeps it. -/
inductive StoredValue where
  | string (v : String)
  | binary (v : Binary)
  | long (v : Int64)
  | double (v : Float)
  | decimal (v : Decimal)
  | boolean (v : Bool)
  | date (v : Timestamp)

namespace StoredValue

/-- The property type that goes with the value. -/
def propertyType : StoredValue → PropertyType
  | .string _ => .string
  | .binary _ => .binary
  | .long _ => .long
  | .double _ => .double
  | .decimal _ => .decimal
  | .boolean _ => .boolean
  | .date _ => .date

/-- The value that a reader of the property gets. -/
def toValue : StoredValue → Value
  | .string v => .string v
  | .binary v => .binary v
  | .long v => .long v
  | .double v => .double v
  | .decimal v => .decimal v
  | .boolean v => .bool v
  | .date v => .calendar v

/-- The text of a stored value. -/
def toText (v : StoredValue) : String := v.toValue.toText

/-- The stored form of a value that needs no new binary; objects and
arrays have none here. -/
def ofPlain? : Value → Option StoredValue
  | .string v => some (.string v)
  | .char v => some (.string (String.singleton v))
  | .byte v => some (.long v.toInt64)
  | .short v => some (.long v.toInt64)
  | .int v => some (.long v.toInt64)
  | .long v => some (.long v)
  | .float v => some (.double v.toFloat)
  | .double v => some (.double v)
  | .decimal v => some (.decimal v)
  | .bool v => some (.boolean v)
  | .date v => some (.date v.toTimestamp)
  | .calendar v => some (.date v)
  | .zoned v => some (.date v)
  | .binary v => some (.binary v)
  | .object _ => none
  | .array _ => none

end StoredValue

end ContentProperties
