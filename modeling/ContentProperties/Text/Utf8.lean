/-
Texts as bytes. Reading is one scan that yields, piece by piece, either
a character or the mark of a byte sequence that begins no character.
The strict reading demands that every piece is a character; the lossy
one replaces each faulty piece. A faulty piece is as long as the bytes
that could still have begun a character, which fixes how many
replacement characters a damaged text gets.
-/

namespace ContentProperties.Text

-- ================================================= writing

/-- The bytes of a text. -/
def utf8Bytes (s : String) : List UInt8 := s.toUTF8.toList

-- ================================================= reading

/-- What a lead byte announces: its own bits of the character, the
range of the byte after it, and how many bytes follow in all. The
narrowed ranges exclude overlong forms, surrogates and numbers beyond
the last code point. -/
def lead? (b : UInt8) : Option (Nat × (UInt8 × UInt8) × Nat) :=
  if b < 0x80 then some (b.toNat, (0x80, 0xbf), 0)
  else if b < 0xc2 then none
  else if b < 0xe0 then some (b.toNat - 0xc0, (0x80, 0xbf), 1)
  else if b = 0xe0 then some (0, (0xa0, 0xbf), 2)
  else if b = 0xed then some (0xd, (0x80, 0x9f), 2)
  else if b < 0xf0 then some (b.toNat - 0xe0, (0x80, 0xbf), 2)
  else if b = 0xf0 then some (0, (0x90, 0xbf), 3)
  else if b < 0xf4 then some (b.toNat - 0xf0, (0x80, 0xbf), 3)
  else if b = 0xf4 then some (4, (0x80, 0x8f), 3)
  else none

/-- The bytes that continue a character: `count` of them, the first in
`range`, the others anywhere among the continuation bytes. Yields the
completed number, or nothing if a byte does not fit, and in both cases
what is left after the bytes that did fit. -/
def continuation (acc : Nat) (range : UInt8 × UInt8) :
    Nat → List UInt8 → Option Nat × List UInt8
  | 0, rest => (some acc, rest)
  | _ + 1, [] => (none, [])
  | count + 1, b :: rest =>
      if range.1 ≤ b && b ≤ range.2 then
        continuation (64 * acc + (b.toNat - 0x80)) (0x80, 0xbf) count rest
      else (none, b :: rest)

theorem continuation_length_le (acc : Nat) (range : UInt8 × UInt8)
    (count : Nat) (bs : List UInt8) :
    (continuation acc range count bs).2.length ≤ bs.length := by
  induction bs generalizing acc range count with
  | nil => cases count <;> simp [continuation]
  | cons b rest ih =>
    cases count with
    | zero => simp [continuation]
    | succ count =>
      simp only [continuation]
      split
      · exact Nat.le_succ_of_le (ih _ _ _)
      · simp

/-- The pieces of a byte sequence: a character, or nothing for a
sequence that begins none. -/
def utf8Pieces : List UInt8 → List (Option Char)
  | [] => []
  | b :: rest =>
      match lead? b with
      | none => none :: utf8Pieces rest
      | some (bits, range, count) =>
          let read := continuation bits range count rest
          read.1.map Char.ofNat :: utf8Pieces read.2
termination_by bs => bs.length
decreasing_by
  · simp
  · exact Nat.lt_succ_of_le (continuation_length_le _ _ _ _)

/-- The text that the bytes encode, if they encode one. -/
def utf8Decode? (bs : List UInt8) : Option String :=
  ((utf8Pieces bs).mapM id).map String.ofList

/-- The text with a replacement character for each faulty piece. -/
def utf8Lossy (bs : List UInt8) : String :=
  String.ofList ((utf8Pieces bs).map (·.getD '\ufffd'))

end ContentProperties.Text
