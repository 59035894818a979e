/-
JSON data, the serialized form of objects. Integers and doubles are
different kinds of number, and an object keeps its fields in ascending
order of their names, so that equal data are written alike.
-/

namespace ContentProperties

/-- A JSON value. -/
inductive Json where
  | null
  | bool (b : Bool)
  /-- An integer of at most 64 bits, signed or not. -/
  | int (i : Int)
  | double (x : Float)
  | string (s : String)
  | array (items : List Json)
  /-- Fields in ascending order of their names. -/
  | object (fields : List (String × Json))
  deriving Inhabited

namespace Json

mutual

/-- Equality. An integer never equals a double, and doubles are compared
as numbers. -/
def beq : Json → Json → Bool
  | .null, .null => true
  | .bool a, .bool b => a == b
  | .int a, .int b => a == b
  | .double a, .double b => a == b
  | .string a, .string b => a == b
  | .array a, .array b => beqItems a b
  | .object a, .object b => beqFields a b
  | _, _ => false

/-- Equality of arrays, place by place. -/
def beqItems : List Json → List Json → Bool
  | [], [] => true
  | a :: as, b :: bs => beq a b && beqItems as bs
  | _, _ => false

/-- Equality of objects. Their fields are in order, so equal objects have
equal fields at equal places. -/
def beqFields : List (String × Json) → List (String × Json) → Bool
  | [], [] => true
  | (j, a) :: as, (k, b) :: bs => j == k && beq a b && beqFields as bs
  | _, _ => false

end

instance : BEq Json := ⟨beq⟩

/-- Sets a field at its place in the order; a field that is there already
gets the new value. -/
def setField (name : String) (value : Json) :
    List (String × Json) → List (String × Json)
  | [] => [(name, value)]
  | (k, v) :: rest =>
      if name < k then (name, value) :: (k, v) :: rest
      else if name = k then (name, value) :: rest
      else (k, v) :: setField name value rest

/-- The object that results from setting fields one after the other. -/
def ofFields (fields : List (String × Json)) : Json :=
  .object (fields.foldl (fun acc f => setField f.1 f.2 acc) [])

end Json

end ContentProperties
