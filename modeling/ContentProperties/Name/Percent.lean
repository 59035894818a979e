/-
Percent escaping, the encoding in which keys become storage names. A
character that an item name may not hold is written `%XX`. Two rules
depend on the place: a dot is escaped in names of one or two characters,
so that `.` and `..` stay free for navigation, and a space is escaped at
either end. Unescaping needs no place: it reads every well-formed escape
and keeps everything else.
-/
import ContentProperties.Name.Segments
import ContentProperties.Text.Hex

namespace ContentProperties.Name

open Text

-- ================================================= escaping

/-- The characters that no item name may hold. The percent sign is
among them, which is what makes escaping reversible. -/
def illegalChars : List Char :=
  ['%', '/', ':', '[', ']', '*', '|', '\t', '\r', '\n']

/-- Whether a character is escaped, given whether its name is shorter
than three characters and whether it stands at an end of the name. -/
def mustEscape (short atEnd : Bool) (c : Char) : Bool :=
  illegalChars.contains c || (c == '.' && short) || (c == ' ' && atEnd)

/-- The escape of a character; all escaped ones are ASCII. -/
def percentEscape (c : Char) : List Char :=
  ['%', hexUpper (c.toNat / 16 % 16), hexUpper (c.toNat % 16)]

/-- The rest of a name with its escapes. A character is the last one
when nothing follows it; `first` holds at the start of the name only. -/
def escapeFrom (short : Bool) : Bool → List Char → List Char
  | _, [] => []
  | first, c :: rest =>
      (if mustEscape short (first || rest.isEmpty) c then percentEscape c
        else [c]) ++ escapeFrom short false rest

/-- The storage form of a name. -/
def escapeChars (name : List Char) : List Char :=
  escapeFrom (name.length < 3) true name

/-- The storage form of a name. -/
def escape (name : String) : String :=
  String.ofList (escapeChars name.toList)

/-- The storage form of a path: its segments escaped one by one. -/
def escapePath (path : String) : String :=
  String.ofList (mapSegments escapeChars path.toList)

-- ================================================= unescaping

/-- Reads every escape of two hexadecimal digits back. A percent sign
without them stays as it is. -/
def unescapeChars : List Char → List Char
  | [] => []
  | '%' :: hi :: lo :: rest =>
      match hexDigit? hi, hexDigit? lo with
      | some h, some l => Char.ofNat (16 * h + l) :: unescapeChars rest
      | _, _ => '%' :: unescapeChars (hi :: lo :: rest)
  | c :: rest => c :: unescapeChars rest

/-- The name that a storage form stands for. -/
def unescape (name : String) : String :=
  String.ofList (unescapeChars name.toList)

end ContentProperties.Name
