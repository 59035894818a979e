/-
Reading JSON values. Arrays and objects may be nested to a given depth,
on which the recursion runs; the loops over items and fields are bounded
by the bytes to come. Passing over a value needs no depth: it keeps the
open containers on a list of its own.
-/
import ContentProperties.Json.Number
import ContentProperties.Json.Strings

namespace ContentProperties.Json

namespace Read

-- ================================================= ends and separators

/-- Reads the end of an array. A comma in its place is taken, and so is
a look at what follows, before giving up. -/
def endArray : Read Unit := do
  match ← skipBlanks with
  | none => giveUp
  | some b =>
      if b = byte ']' then skip
      else if b = byte ',' then
        skip
        discard skipBlanks
        giveUp
      else giveUp

/-- Reads the end of an object. -/
def endObject : Read Unit := do
  match ← skipBlanks with
  | none => giveUp
  | some b => if b = byte '\x7d' then skip else giveUp

/-- Whether another item follows in an array, passing over the comma
before it. -/
def moreItems (first : Bool) : Read Bool := do
  match ← skipBlanks with
  | none => giveUp
  | some b =>
      if b = byte ']' then pure false
      else if first then pure true
      else if b = byte ',' then
        skip
        match ← skipBlanks with
        | none => giveUp
        | some b => if b = byte ']' then giveUp else pure true
      else giveUp

/-- The name of the next field of an object, if another follows. -/
def nextName? (first : Bool) : Read (Option String) := do
  match ← skipBlanks with
  | none => giveUp
  | some b =>
      if b = byte '\x7d' then pure none
      else if first then
        if b = byte '"' then named else giveUp
      else if b = byte ',' then
        skip
        match ← skipBlanks with
        | none => giveUp
        | some b => if b = byte '"' then named else giveUp
      else giveUp
where
  named : Read (Option String) := do
    skip
    let name ← string
    pure (some name)

/-- Reads the colon between a name and its value. -/
def colon : Read Unit := do
  if (← skipBlanks) = some (byte ':') then skip else giveUp

-- ================================================= values

/-- Reads the items of an array up to its end. -/
def items (item : Read Json) (first : Bool) : Nat → Read (List Json)
  | 0 => giveUp
  | rounds + 1 => do
      if ← moreItems first then
        let head ← item
        let rest ← items item false rounds
        pure (head :: rest)
      else pure []

/-- Reads the fields of an object up to its end. -/
def fields (item : Read Json) (first : Bool) :
    Nat → Read (List (String × Json))
  | 0 => giveUp
  | rounds + 1 => do
      match ← nextName? first with
      | none => pure []
      | some name =>
          colon
          let value ← item
          let rest ← fields item false rounds
          pure ((name, value) :: rest)

/-- Reads a value whose containers are nested at most `depth` deep. -/
def value (depth : Nat) : Read Json := do
  match ← skipBlanks with
  | none => giveUp
  | some b =>
      if b = byte 'n' then
        skip
        expect ['u', 'l', 'l']
        pure .null
      else if b = byte 't' then
        skip
        expect ['r', 'u', 'e']
        pure (.bool true)
      else if b = byte 'f' then
        skip
        expect ['a', 'l', 's', 'e']
        pure (.bool false)
      else if b = byte '-' then
        skip
        number false
      else if isDigit b then number true
      else if b = byte '"' then
        skip
        return .string (← string)
      else if b = byte '[' then
        match depth with
        | 0 => giveUp
        | depth + 1 =>
            skip
            let rounds := (← bytesLeft) + 1
            let read ← closing (items (value depth) true rounds) endArray
            pure (.array read)
      else if b = byte '\x7b' then
        match depth with
        | 0 => giveUp
        | depth + 1 =>
            skip
            let rounds := (← bytesLeft) + 1
            let read ← closing (fields (value depth) true rounds) endObject
            pure (ofFields read)
      else giveUp

/-- Reads the end of the source, white space aside. -/
def atEnd : Read Unit := do
  if (← skipBlanks).isSome then giveUp

/-- The greatest depth to which containers may be nested. -/
def maxDepth : Nat := 127

/-- Reads a value up to the end of the source. -/
def document : Read Json := do
  let j ← value maxDepth
  atEnd
  pure j

-- ================================================= passing over values

/-- Passes over a string, number or name that starts with the byte at
hand. Containers are left to the caller. -/
def skipScalar (b : UInt8) : Read Unit := do
  if b = byte 'n' then
    skip
    expect ['u', 'l', 'l']
  else if b = byte 't' then
    skip
    expect ['r', 'u', 'e']
  else if b = byte 'f' then
    skip
    expect ['a', 'l', 's', 'e']
  else if b = byte '-' then
    skip
    skipNumber
  else if isDigit b then skipNumber
  else if b = byte '"' then
    skip
    skipString
  else giveUp

/-- Passes over the name and the colon of a field. -/
def skipName : Read Unit := do
  if (← skipBlanks) = some (byte '"') then skip else giveUp
  skipString
  colon

/-- What passing over a value meets next. -/
inductive Expected where
  /-- A value. -/
  | value
  /-- The first item of a container, or its end. -/
  | firstItem
  /-- A comma and another item, or the end of a container. -/
  | nextItem

/-- Passes over values inside the open containers, of which the list says
whether each is an object. Each round takes a byte. -/
def skipFrom (expected : Expected) (stack : List Bool) : Nat → Read Unit
  | 0 => giveUp
  | rounds + 1 => do
      let b? ← skipBlanks
      match b?, expected with
      | none, _ => giveUp
      | some b, .value =>
          if b = byte '[' || b = byte '\x7b' then
            skip
            skipFrom .firstItem ((b = byte '\x7b' : Bool) :: stack) rounds
          else
            skipScalar b
            if stack.isEmpty then pure () else skipFrom .nextItem stack rounds
      | some b, _ =>
          let more := expected matches .nextItem
          match stack with
          | [] => pure ()
          | isObject :: outer =>
              if b = byte (if isObject then '\x7d' else ']') then
                skip
                if outer.isEmpty then pure ()
                else skipFrom .nextItem outer rounds
              else if more && b ≠ byte ',' then giveUp
              else
                if more then skip
                if isObject then skipName
                skipFrom .value stack rounds

/-- Passes over a value. -/
def skipValue : Read Unit := do
  let rounds := (← bytesLeft) + 1
  skipFrom .value [] (2 * rounds)

end Read

/-- The value that a text writes. -/
def ofText? (s : String) : Option Json :=
  (Read.document ⟨Text.utf8Bytes s, false, false⟩).1

end ContentProperties.Json
