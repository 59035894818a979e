/-
Values: what a property holds once it has been read, and what a caller
writes. There is no value for "nothing"; absence is said by the
surrounding option. Equality is that of each kind: floating-point
numbers compare as numbers, decimals and timestamps by what they stand
for and not by how they are written, binaries by their source.
-/
import ContentProperties.Binary.Basic
import ContentProperties.Numeric.DecimalText
import ContentProperties.Object.Basic
import ContentProperties.Time.Iso8601

namespace ContentProperties

open Time

/-- A property value. -/
inductive Value where
  | byte (v : Int8)
  | short (v : Int16)
  | int (v : Int32)
  | long (v : Int64)
  | float (v : Float32)
  | double (v : Float)
  | decimal (v : Decimal)
  | bool (v : Bool)
  | char (v : Char)
  | string (v : String)
  /-- An instant, shown in UTC. -/
  | date (v : Instant)
  /-- A timestamp at an offset. -/
  | calendar (v : Timestamp)
  /-- A timestamp in a zone, which is kept as its offset. -/
  | zoned (v : Timestamp)
  | binary (v : Binary)
  | object (v : ObjectValue)
  /-- The values of a multi-valued property. -/
  | array (items : List Value)

namespace Value

-- ================================================= kinds

/-- The name of the kind, for messages. -/
def kindName : Value → String
  | .byte _ => "Byte"
  | .short _ => "Short"
  | .int _ => "Int"
  | .long _ => "Long"
  | .float _ => "Float"
  | .double _ => "Double"
  | .decimal _ => "Decimal"
  | .bool _ => "Bool"
  | .char _ => "Char"
  | .string _ => "String"
  | .date _ => "Date"
  | .calendar _ => "Calendar"
  | .zoned _ => "Zoned"
  | .binary _ => "Binary"
  | .object _ => "Object"
  | .array _ => "Array"

/-- Whether the value is an array. -/
def isArray : Value → Bool
  | .array _ => true
  | _ => false

/-- The text of a string, and of no other value. -/
def asString? : Value → Option String
  | .string s => some s
  | _ => none

mutual

/-- Whether the value has a serialized form: a binary is a stream and has
none, an object if it carries data, an array if all its items have
one. -/
def isSerializable : Value → Bool
  | .binary _ => false
  | .object o => o.isSerializable
  | .array items => allSerializable items
  | _ => true

/-- Whether all values have a serialized form. -/
def allSerializable : List Value → Bool
  | [] => true
  | v :: rest => isSerializable v && allSerializable rest

end

-- ================================================= equality

mutual

/-- Equality of values, of one kind only. -/
def beq : Value → Value → Bool
  | .byte a, .byte b => a == b
  | .short a, .short b => a == b
  | .int a, .int b => a == b
  | .long a, .long b => a == b
  | .float a, .float b => a == b
  | .double a, .double b => a == b
  | .decimal a, .decimal b => a == b
  | .bool a, .bool b => a == b
  | .char a, .char b => a == b
  | .string a, .string b => a == b
  | .date a, .date b => a == b
  | .calendar a, .calendar b => a == b
  | .zoned a, .zoned b => a == b
  | .binary a, .binary b => a == b
  | .object a, .object b => a == b
  | .array a, .array b => beqItems a b
  | _, _ => false

/-- Equality of arrays, place by place. -/
def beqItems : List Value → List Value → Bool
  | [], [] => true
  | a :: as, b :: bs => beq a b && beqItems as bs
  | _, _ => false

end

instance : BEq Value := ⟨beq⟩

-- ================================================= text

/-- The text of a truth value. -/
def boolText (b : Bool) : String := if b then "true" else "false"

mutual

/-- The text of a value. -/
def toText : Value → String
  | .byte v => Numeric.intText v.toInt
  | .short v => Numeric.intText v.toInt
  | .int v => Numeric.intText v.toInt
  | .long v => Numeric.intText v.toInt
  | .float v => Numeric.singleText v
  | .double v => Numeric.doubleText v
  | .decimal v => v.toText
  | .bool v => boolText v
  | .char v => String.singleton v
  | .string v => v
  | .date v => v.toText
  | .calendar v => v.toText
  | .zoned v => v.toText
  | .binary v => v.toText
  | .object v => v.toText
  | .array items => "[" ++ itemsText items ++ "]"

/-- The texts of values, separated by commas. -/
def itemsText : List Value → String
  | [] => ""
  | [v] => toText v
  | v :: rest => toText v ++ ", " ++ itemsText rest

end

end Value

end ContentProperties
