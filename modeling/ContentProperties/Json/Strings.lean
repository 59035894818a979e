/-
Reading the strings of JSON. A string is read as bytes, escapes turned
into the bytes of their characters, and only at its end found to be a
text or not. Passing over a string checks less: escapes of any number
will do, and the bytes need not form a text.
-/
import ContentProperties.Json.Input
import ContentProperties.Text.Hex
import ContentProperties.Text.Utf8

namespace ContentProperties.Json.Read

open Text

-- ================================================= escapes

/-- Reads the number of an escape: four bytes, all hexadecimal digits. -/
def hexEscape : Read Nat := do
  let a ← next
  let b ← next
  let c ← next
  let d ← next
  match hexValue? ([a, b, c, d].map fun b => Char.ofNat b.toNat) with
  | some n => pure n
  | none => giveUp

/-- The bytes of the character with the given number. -/
def charBytes (n : Nat) : List UInt8 :=
  utf8Bytes (String.singleton (Char.ofNat n))

/-- Reads an escape by number. A character beyond the basic plane takes
two of them, and neither half stands alone. -/
def numberEscape : Read (List UInt8) := do
  let n ← hexEscape
  if 0xdc00 ≤ n ∧ n ≤ 0xdfff then giveUp
  else if 0xd800 ≤ n ∧ n ≤ 0xdbff then
    expect ['\\', 'u']
    let m ← hexEscape
    if 0xdc00 ≤ m ∧ m ≤ 0xdfff then
      pure (charBytes (0x10000 + (n - 0xd800) * 0x400 + (m - 0xdc00)))
    else giveUp
  else pure (charBytes n)

/-- What the letter of a short escape stands for. -/
def shortEscape? (b : UInt8) : Option Char :=
  if b = byte '"' then some '"'
  else if b = byte '\\' then some '\\'
  else if b = byte '/' then some '/'
  else if b = byte 'b' then some '\x08'
  else if b = byte 'f' then some '\x0c'
  else if b = byte 'n' then some '\n'
  else if b = byte 'r' then some '\r'
  else if b = byte 't' then some '\t'
  else none

/-- Reads an escape after its backslash. -/
def escape : Read (List UInt8) := do
  let b ← next
  match shortEscape? b with
  | some c => pure [byte c]
  | none => if b = byte 'u' then numberEscape else giveUp

/-- Passes over an escape after its backslash. -/
def skipEscape : Read (List UInt8) := do
  let b ← next
  if (shortEscape? b).isSome then pure []
  else if b = byte 'u' then
    discard hexEscape
    pure []
  else giveUp

-- ================================================= strings

/-- Reads bytes up to the closing quote, escapes by the given reading.
Each round takes a byte, so as many rounds as bytes suffice. -/
def stringBytes (readEscape : Read (List UInt8)) (acc : List UInt8) :
    Nat → Read (List UInt8)
  | 0 => do
      discard next
      giveUp
  | rounds + 1 => do
      let b ← next
      if b = byte '"' then pure acc.reverse
      else if b = byte '\\' then
        let bytes ← readEscape
        stringBytes readEscape (bytes.reverse ++ acc) rounds
      else if b < 0x20 then giveUp
      else stringBytes readEscape (b :: acc) rounds

/-- Reads a string after its opening quote. -/
def string : Read String := do
  let bytes ← stringBytes escape [] (← bytesLeft)
  match utf8Decode? bytes with
  | some s => pure s
  | none => giveUp

/-- Passes over a string after its opening quote. -/
def skipString : Read Unit := do
  discard (stringBytes skipEscape [] (← bytesLeft))

end ContentProperties.Json.Read
