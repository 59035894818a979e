/-
A byte source as a reader of JSON sees it: the bytes to come, and
whether the source fails instead of ending. The reader looks one byte
ahead. A byte it has looked at has left the source, so it is lost to
whoever reads on after the reader gave up; that is why an input records
whether its next byte was looked at.

A reading either yields a value or gives up, and in both cases leaves
the input where it stopped.
-/

namespace ContentProperties.Json

-- ================================================= inputs

/-- The state of a byte source under a reader. -/
structure Input where
  /-- The bytes not yet read. -/
  rest : List UInt8
  /-- Whether the first of them was looked at. -/
  looked : Bool
  /-- Whether the source fails when it runs out of bytes. -/
  failsAtEnd : Bool

/-- The bytes left to whoever reads on. -/
def Input.remaining (i : Input) : List UInt8 :=
  if i.looked then i.rest.tail else i.rest

/-- Readings that may give up. -/
abbrev Read := OptionT (StateM Input)

namespace Read

-- ================================================= single bytes

/-- Gives up where the input stands. -/
def giveUp {α : Type} : Read α := fun i => (none, i)

/-- Looks at the next byte; none at the end. -/
def look : Read (Option UInt8) := fun i =>
  match i.rest with
  | [] => (if i.failsAtEnd then none else some none, i)
  | b :: rest => (some (some b), ⟨b :: rest, true, i.failsAtEnd⟩)

/-- Passes over the next byte. -/
def skip : Read Unit := fun i =>
  (some (), ⟨i.rest.tail, false, i.failsAtEnd⟩)

/-- Takes the next byte, of which there must be one. -/
def next : Read UInt8 := fun i =>
  match i.rest with
  | [] => (none, i)
  | b :: rest => (some b, ⟨rest, false, i.failsAtEnd⟩)

/-- The count of bytes to come, a bound on any loop that takes one at a
time. -/
def bytesLeft : Read Nat := fun i => (some i.rest.length, i)

-- ================================================= runs of bytes

/-- The byte of an ASCII character. -/
def byte (c : Char) : UInt8 := UInt8.ofNat c.toNat

/-- Whether the byte is white space between tokens. -/
def isBlank (b : UInt8) : Bool :=
  b == byte ' ' || b == byte '\n' || b == byte '\t' || b == byte '\r'

/-- Whether the byte is a digit. -/
def isDigit (b : UInt8) : Bool := byte '0' ≤ b && b ≤ byte '9'

/-- Takes the bytes of a kind and looks at what follows. -/
def takeWhile (p : UInt8 → Bool) : Read (List UInt8) := do
  let run ← (fun i => (some (i.rest.takeWhile p), i) : Read (List UInt8))
  modify fun i =>
    if run.isEmpty then i
    else ⟨i.rest.dropWhile p, false, i.failsAtEnd⟩
  discard look
  pure run

/-- Passes over white space and looks at what follows. -/
def skipBlanks : Read (Option UInt8) := do
  discard (takeWhile isBlank)
  look

/-- Takes the given characters one by one. -/
def expect : List Char → Read Unit
  | [] => pure ()
  | c :: rest => do
      if (← next) = byte c then expect rest else giveUp

/-- Runs the reading of a container and then that of its end. The end is
looked for even when the reading gave up, and both must succeed. -/
def closing {α : Type} (body : Read α) (close : Read Unit) : Read α :=
  fun i =>
    let (result, i) := body i
    let (closed, i) := close i
    (match result, closed with
      | some a, some () => some a
      | _, _ => none, i)

end Read

end ContentProperties.Json
