/-
Reading the envelope of an object: a JSON object with the fields `type`
and `data`, each exactly once, among which other fields are passed over,
or an array of a type and data. Nothing may follow but white space.
-/
import ContentProperties.Json.Reader
import ContentProperties.Object.Basic

namespace ContentProperties.ObjectValue

open Json Json.Read

-- ================================================= the two parts

/-- Gives up at a value of the wrong kind, of which a number, string or
name is read first. -/
def refuse {α : Type} : Read α := do
  discard (value 0)
  giveUp

/-- Reads the name of the type, a string. -/
def readType : Read String := do
  match ← skipBlanks with
  | none => giveUp
  | some b =>
      if b = byte '"' then
        skip
        Read.string
      else refuse

/-- Reads the data. The envelope counts as one level of nesting. -/
def readData : Read Json := value (maxDepth - 1)

-- ================================================= both forms

/-- Reads the fields of an envelope. -/
def envelopeFields (type? : Option String) (data? : Option Json)
    (first : Bool) : Nat → Read (String × Json)
  | 0 => giveUp
  | rounds + 1 => do
      match ← nextName? first with
      | none =>
          match type?, data? with
          | some name, some payload => pure (name, payload)
          | _, _ => giveUp
      | some field =>
          if field = typeField then
            if type?.isSome then giveUp
            else
              colon
              let name ← readType
              envelopeFields (some name) data? false rounds
          else if field = dataField then
            if data?.isSome then giveUp
            else
              colon
              let payload ← readData
              envelopeFields type? (some payload) false rounds
          else
            colon
            skipValue
            envelopeFields type? data? false rounds

/-- Reads the two items of an envelope that is an array. -/
def envelopeItems : Read (String × Json) := do
  if ← moreItems true then
    let name ← readType
    if ← moreItems false then
      let payload ← readData
      pure (name, payload)
    else giveUp
  else giveUp

/-- Reads an envelope up to the end of the source. -/
def envelope : Read (String × Json) := do
  match ← skipBlanks with
  | none => giveUp
  | some b =>
      let parts ←
        if b = byte '\x7b' then do
          skip
          let rounds := (← bytesLeft) + 1
          closing (envelopeFields none none true rounds) endObject
        else if b = byte '[' then do
          skip
          closing envelopeItems endArray
        else refuse
      atEnd
      pure parts

end ContentProperties.ObjectValue
