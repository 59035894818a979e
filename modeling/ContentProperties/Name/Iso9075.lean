/-
The ISO 9075 encoding of names, used by older writers. A character that
an XML name may not hold at its place is written `_xHHHH_`, and so is an
underscore that would otherwise start such an escape. A name that is
legal and holds no `_x` at all is taken as it is. Decoding reads the
escapes of four digits back; an escape of a number that is no character
is left alone.
-/
import ContentProperties.Name.Segments
import ContentProperties.Text.Hex

namespace ContentProperties.Name

open Text

-- ================================================= legal characters

/-- The ranges of characters that may start a name. -/
def nameStartRanges : List (Nat × Nat) :=
  [(0x3a, 0x3a), (0x41, 0x5a), (0x5f, 0x5f), (0x61, 0x7a), (0xc0, 0xd6),
    (0xd8, 0xf6), (0xf8, 0x2ff), (0x370, 0x37d), (0x37f, 0x1fff),
    (0x200c, 0x200d), (0x2070, 0x218f), (0x2c00, 0x2fef),
    (0x3001, 0xd7ff), (0xf900, 0xfdcf), (0xfdf0, 0xfffd),
    (0x10000, 0xeffff)]

/-- The ranges of characters that may only continue a name. -/
def nameInnerRanges : List (Nat × Nat) :=
  [(0x2d, 0x2e), (0x30, 0x39), (0xb7, 0xb7), (0x300, 0x36f),
    (0x203f, 0x2040)]

/-- Whether a name may start with the character. -/
def isNameStart (c : Char) : Bool :=
  nameStartRanges.any fun r => r.1 ≤ c.toNat && c.toNat ≤ r.2

/-- Whether a name may hold the character after its start. -/
def isNameChar (c : Char) : Bool :=
  isNameStart c ||
    nameInnerRanges.any fun r => r.1 ≤ c.toNat && c.toNat ≤ r.2

/-- Whether every character of the name is legal at its place. -/
def isLegalName : List Char → Bool
  | [] => false
  | c :: rest => isNameStart c && (c :: rest).all isNameChar

-- ================================================= encoding

/-- Whether the text holds an underscore followed by an `x`. -/
def hasMark : List Char → Bool
  | '_' :: 'x' :: _ => true
  | _ :: rest => hasMark rest
  | [] => false

/-- Whether the text starts like an escape: the mark and four digits.
The closing underscore is not asked for. -/
def looksEscaped : List Char → Bool
  | '_' :: 'x' :: a :: b :: c :: d :: _ => [a, b, c, d].all isHexDigit
  | _ => false

/-- The escape of a character. Beyond the basic plane it has five
digits, which decoding does not read back. -/
def markEscape (c : Char) : List Char :=
  ['_', 'x'] ++ hexPadded 4 c.toNat ++ ['_']

/-- The rest of a name with its escapes; `legal` judges the character at
hand, and every later one is an inner character. -/
def encodeFrom : (Char → Bool) → List Char → List Char
  | _, [] => []
  | legal, c :: rest =>
      (if !legal c then markEscape c
        else if looksEscaped (c :: rest) then markEscape '_'
        else [c]) ++ encodeFrom isNameChar rest

/-- The encoded form of a name. -/
def encodeChars (name : List Char) : List Char :=
  if name.isEmpty || (isLegalName name && !hasMark name) then name
  else encodeFrom isNameStart name

/-- The encoded form of a name. -/
def encode (name : String) : String :=
  String.ofList (encodeChars name.toList)

/-- The encoded form of a path segment: the index of a same-name
sibling, from the first bracket on, is kept as it is. -/
def encodeSegment (segment : List Char) : List Char :=
  encodeChars (segment.takeWhile (· != '[')) ++
    segment.dropWhile (· != '[')

/-- The encoded form of a path: its segments encoded one by one. -/
def encodePath (path : String) : String :=
  String.ofList (mapSegments encodeSegment path.toList)

-- ================================================= decoding

/-- The character with the given number; none for a surrogate. -/
def charOfNat? (n : Nat) : Option Char :=
  if n.isValidChar then some (Char.ofNat n) else none

/-- The character of an escape of exactly four digits. -/
def markedChar? (a b c d : Char) : Option Char := do
  charOfNat? (← hexValue? [a, b, c, d])

/-- Reads the escapes back, from left to right. -/
def decodeChars : List Char → List Char
  | [] => []
  | '_' :: 'x' :: a :: b :: c :: d :: '_' :: rest =>
      match markedChar? a b c d with
      | some decoded => decoded :: decodeChars rest
      | none => '_' :: decodeChars ('x' :: a :: b :: c :: d :: '_' :: rest)
  | c :: rest => c :: decodeChars rest

/-- The name that an encoded form stands for. -/
def decode (name : String) : String :=
  String.ofList (decodeChars name.toList)

end ContentProperties.Name
