/-
Options in the text of a configuration file. The text has one setting a
line, a key and a value with an equals sign between them, with comments
and empty lines among them. A key may be quoted, a value is a truth
value or a natural number. This is all of TOML that can name an option
and give it a value: whatever else a document may hold, a table, a
string, a fraction, is either an unknown option or a value of the wrong
kind, so a text of any other shape is refused as a whole.
-/
import ContentProperties.Map.Provider
import ContentProperties.Numeric.Digits
import ContentProperties.Text.Hex
import ContentProperties.Text.Utf8

namespace ContentProperties

-- ================================================= options by name

/-- An option that a setting can name. -/
inductive OptionKey where
  | legacyPathEncoding
  | streamBufferSize
  | cacheNamespacePrefixes
  | synthesizeResourceType
  deriving DecidableEq

namespace OptionKey

/-- All options. -/
def all : List OptionKey :=
  [.legacyPathEncoding, .streamBufferSize, .cacheNamespacePrefixes,
    .synthesizeResourceType]

/-- The name of an option in a configuration. -/
def name : OptionKey → String
  | .legacyPathEncoding => "legacy_path_encoding"
  | .streamBufferSize => "stream_buffer_size"
  | .cacheNamespacePrefixes => "cache_namespace_prefixes"
  | .synthesizeResourceType => "synthesize_resource_type"

/-- The option of a name. -/
def ofName? (text : String) : Option OptionKey :=
  all.find? fun key => key.name == text

end OptionKey

/-- The value of a setting. -/
inductive Setting where
  | flag (b : Bool)
  | number (n : Nat)

/-- Why options could not be taken from a configuration. -/
inductive ConfigError where
  /-- There is no such file, or it is no text. -/
  | unreadable
  /-- The text of a file is no configuration. -/
  | malformedFile
  /-- A text is no configuration. -/
  | malformedText
  /-- An option has a value it must not have. -/
  | invalid (key : OptionKey) (reason : String)
  deriving DecidableEq

/-- The text of the error. -/
def ConfigError.message : ConfigError → String
  | .unreadable => "failed to read map options"
  | .malformedFile | .malformedText => "failed to parse map options"
  | .invalid key reason => "map option '" ++ key.name ++ "' " ++ reason

/-- Gives an option a value, which must be of the kind it takes. -/
def MapOptions.set? (o : MapOptions) :
    OptionKey → Setting → Option MapOptions
  | .legacyPathEncoding, .flag b => some { o with legacyPathEncoding := b }
  | .streamBufferSize, .number n => some { o with streamBufferSize := n }
  | .cacheNamespacePrefixes, .flag b =>
      some { o with cacheNamespacePrefixes := b }
  | .synthesizeResourceType, .flag b =>
      some { o with synthesizeResourceType := b }
  | _, _ => none

namespace OptionsText

-- ================================================= values

/-- The digits of a number, most significant first. An underscore may
stand between two digits and nowhere else. -/
def digitRun? (radix : Nat) : List Char → Option (List Nat)
  | [] => none
  | [c] => do
      let d ← digit? c
      pure [d]
  | c :: '_' :: rest => do
      let d ← digit? c
      let ds ← digitRun? radix rest
      pure (d :: ds)
  | c :: rest => do
      let d ← digit? c
      let ds ← digitRun? radix rest
      pure (d :: ds)
where
  digit? (c : Char) : Option Nat :=
    (Text.hexDigit? c).filter fun d => d < radix

/-- The number that digits write. -/
def digitsValue (radix : Nat) (digits : List Nat) : Nat :=
  digits.foldl (fun n d => radix * n + d) 0

/-- Reads a decimal number, without leading zeros. -/
def readDecimal? (cs : List Char) : Option Nat :=
  match digitRun? 10 cs with
  | some (0 :: _ :: _) => none
  | some digits => some (digitsValue 10 digits)
  | none => none

/-- Reads a natural number: in decimal, where it may have a sign, or after
a mark for the radix, where it may not. Below zero there is nothing to
read. -/
def readNumber? : List Char → Option Nat
  | '0' :: 'x' :: cs => (digitRun? 16 cs).map (digitsValue 16)
  | '0' :: 'o' :: cs => (digitRun? 8 cs).map (digitsValue 8)
  | '0' :: 'b' :: cs => (digitRun? 2 cs).map (digitsValue 2)
  | '+' :: cs => readDecimal? cs
  | '-' :: cs => (readDecimal? cs).filter fun n => n = 0
  | cs => readDecimal? cs

/-- Reads the value of a setting. Numbers have at most 63 bits. -/
def readSetting? (cs : List Char) : Option Setting :=
  if cs = "true".toList then some (.flag true)
  else if cs = "false".toList then some (.flag false)
  else ((readNumber? cs).filter fun n => n < Numeric.twoTo 63).map .number

-- ================================================= keys

/-- Whether a key may have the character without being quoted. -/
def isBareChar (c : Char) : Bool := c.isAlphanum || c = '-' || c = '_'

/-- Whether a text may have the character as it is; no control character
but the tab. -/
def isPlainChar (c : Char) : Bool :=
  c = '\t' || (0x20 ≤ c.toNat && c.toNat ≠ 0x7f)

/-- The character that an escape of one letter stands for. -/
def escaped? : Char → Option Char
  | 'b' => some '\x08'
  | 't' => some '\t'
  | 'n' => some '\n'
  | 'f' => some '\x0c'
  | 'r' => some '\r'
  | '"' => some '"'
  | '\\' => some '\\'
  | _ => none

/-- The character of a number in hexadecimal digits. -/
def scalar? (digits : List Char) : Option Char := do
  let n ← Text.hexValue? digits
  if n.isValidChar then some (Char.ofNat n) else none

/-- Reads a key after its opening quote up to the closing one. -/
def takeQuoted? : List Char → Option (List Char × List Char)
  | [] => none
  | '"' :: rest => some ([], rest)
  | '\\' :: 'u' :: a :: b :: c :: d :: rest =>
      keep (scalar? [a, b, c, d]) (takeQuoted? rest)
  | '\\' :: 'U' :: a :: b :: c :: d :: e :: f :: g :: h :: rest =>
      keep (scalar? [a, b, c, d, e, f, g, h]) (takeQuoted? rest)
  | '\\' :: c :: rest => keep (escaped? c) (takeQuoted? rest)
  | c :: rest =>
      keep (if isPlainChar c && c ≠ '\\' then some c else none)
        (takeQuoted? rest)
where
  keep (c? : Option Char) (tail? : Option (List Char × List Char)) :
      Option (List Char × List Char) := do
    let c ← c?
    let (cs, rest) ← tail?
    pure (c :: cs, rest)

/-- Reads a key in apostrophes, in which there are no escapes. -/
def takeLiteral? (cs : List Char) : Option (List Char × List Char) :=
  let key := cs.takeWhile (· ≠ '\'')
  match cs.dropWhile (· ≠ '\'') with
  | _ :: rest => if key.all isPlainChar then some (key, rest) else none
  | [] => none

/-- Reads a key. -/
def takeKey? : List Char → Option (List Char × List Char)
  | '"' :: cs => takeQuoted? cs
  | '\'' :: cs => takeLiteral? cs
  | cs => some (cs.takeWhile isBareChar, cs.dropWhile isBareChar)

-- ================================================= lines

/-- Whether the character is a blank within a line. -/
def isSpace (c : Char) : Bool := c = ' ' || c = '\t'

/-- The characters after the blanks in front. -/
def skipSpaces (cs : List Char) : List Char := cs.dropWhile isSpace

/-- Whether the rest of a line says nothing: blanks, and a comment. -/
def isBlankLine (cs : List Char) : Bool :=
  match skipSpaces cs with
  | [] => true
  | c :: comment => c = '#' && comment.all isPlainChar

/-- Reads a line with a setting. -/
def readLine? (line : List Char) : Option (OptionKey × Setting) := do
  let (name, rest) ← takeKey? (skipSpaces line)
  let key ← OptionKey.ofName? (String.ofList name)
  match skipSpaces rest with
  | '=' :: rest =>
      let written := skipSpaces rest
      let inValue (c : Char) : Bool := !isSpace c && c ≠ '#'
      let setting ← readSetting? (written.takeWhile inValue)
      if isBlankLine (written.dropWhile inValue) then some (key, setting)
      else none
  | _ => none

/-- The lines of a text. A line ends at a line feed, which a carriage
return may precede; the last line ends with the text. -/
def lines : List Char → List (List Char)
  | [] => [[]]
  | '\n' :: rest => [] :: lines rest
  | '\r' :: '\n' :: rest => [] :: lines rest
  | c :: rest =>
      match lines rest with
      | [] => [[c]]
      | line :: others => (c :: line) :: others

/-- Follows the settings of the lines, of which no two may be for one
option. -/
def followLines? (given : List OptionKey) (o : MapOptions) :
    List (List Char) → Option MapOptions
  | [] => some o
  | line :: rest =>
      if isBlankLine line then followLines? given o rest
      else
        match readLine? line with
        | none => none
        | some (key, setting) =>
            if given.contains key then none
            else
              match o.set? key setting with
              | some o => followLines? (key :: given) o rest
              | none => none

/-- The text without the byte order mark that may open it. -/
def withoutMark : List Char → List Char
  | c :: rest => if c = '\ufeff' then rest else c :: rest
  | [] => []

/-- The options that a text sets, and the defaults for the others. -/
def options? (text : String) : Option MapOptions :=
  followLines? [] MapOptions.default (lines (withoutMark text.toList))

end OptionsText

-- ================================================= configurations

namespace MapOptions

/-- Checks the values of options. -/
def validated (o : MapOptions) : Except ConfigError MapOptions :=
  if o.streamBufferSize = 0 then
    .error (.invalid .streamBufferSize "must be greater than zero")
  else .ok o

/-- The checked options of a text, which may be no configuration. -/
def read (malformed : ConfigError) (text : String) :
    Except ConfigError MapOptions :=
  match OptionsText.options? text with
  | some o => o.validated
  | none => .error malformed

/-- The options in a text. -/
def ofText (text : String) : Except ConfigError MapOptions :=
  read .malformedText text

/-- The options in the content of a file, if there is a file. -/
def ofFile (content? : Option (List UInt8)) :
    Except ConfigError MapOptions :=
  match content?.bind Text.utf8Decode? with
  | some text => read .malformedFile text
  | none => .error .unreadable

end MapOptions

end ContentProperties
