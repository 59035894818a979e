/-
JSON as text, in the compact form: no blanks, fields in their order, and
in strings only what must be escaped.
-/
import ContentProperties.Json.Basic
import ContentProperties.Numeric.FloatText
import ContentProperties.Text.Hex

namespace ContentProperties.Json

open Numeric Text

/-- Numbers from `1e-5` up to below `1e16` are plain, exponents have an
explicit sign, and of two equally near texts the even one is taken. -/
def doubleLayout : Layout := ⟨-5, 16, true, fun n => n % 2 == 1⟩

/-- One character of a string. -/
def stringChar (c : Char) : List Char :=
  if c = '"' || c = '\\' then ['\\', c]
  else if c = '\x08' then ['\\', 'b']
  else if c = '\x0c' then ['\\', 'f']
  else if c = '\n' then ['\\', 'n']
  else if c = '\r' then ['\\', 'r']
  else if c = '\t' then ['\\', 't']
  else if c.toNat < 0x20 then ['\\', 'u'] ++ hexPadded 4 c.toNat
  else [c]

/-- A string between quotes. -/
def stringChars (s : String) : List Char :=
  '"' :: s.toList.flatMap stringChar ++ ['"']

mutual

/-- The characters of a value. -/
def chars : Json → List Char
  | .null => ['n', 'u', 'l', 'l']
  | .bool true => ['t', 'r', 'u', 'e']
  | .bool false => ['f', 'a', 'l', 's', 'e']
  | .int i => intDigits i
  | .double x => (doubleTextIn doubleLayout x).toList
  | .string s => stringChars s
  | .array items => '[' :: itemChars items ++ [']']
  | .object fields => '\x7b' :: fieldChars fields ++ ['\x7d']

/-- The items of an array, separated by commas. -/
def itemChars : List Json → List Char
  | [] => []
  | [item] => chars item
  | item :: rest => chars item ++ ',' :: itemChars rest

/-- The fields of an object, separated by commas. -/
def fieldChars : List (String × Json) → List Char
  | [] => []
  | [(k, v)] => stringChars k ++ ':' :: chars v
  | (k, v) :: rest => stringChars k ++ ':' :: chars v ++ ',' :: fieldChars rest

end

/-- The compact text of a value. -/
def toText (j : Json) : String := String.ofList j.chars

end ContentProperties.Json
