/-
Decimal digits: natural numbers and integers written without leading
zeros, and the reading of a run of digits. A reader refuses an empty
run, so it accepts what the writer produces and more only by leading
zeros. With them stand the powers of two and of ten: number formats have
their limits at powers of two, and decimal places count in powers of ten.
-/

namespace ContentProperties.Numeric

-- ================================================= powers

/-- Two to a power. -/
def twoTo (n : Nat) : Nat := Nat.pow 2 n

/-- Ten to a power. -/
def tenTo (n : Nat) : Nat := Nat.pow 10 n

theorem tenTo_pos (n : Nat) : 0 < tenTo n :=
  Nat.pow_pos (by decide)

-- ================================================= writing

/-- The digit for a number below ten. -/
def digitChar (d : Nat) : Char := Char.ofNat (0x30 + d)

/-- A natural number in decimal digits, most significant first. -/
def natDigits (n : Nat) : List Char :=
  if n < 10 then [digitChar n]
  else natDigits (n / 10) ++ [digitChar (n % 10)]

/-- An integer in decimal digits, with a minus sign below zero. -/
def intDigits (i : Int) : List Char :=
  if i < 0 then '-' :: natDigits i.natAbs else natDigits i.natAbs

/-- The text of an integer. -/
def intText (i : Int) : String := String.ofList (intDigits i)

-- ================================================= reading

/-- The number a decimal digit stands for; ASCII digits only. -/
def digit? (c : Char) : Option Nat :=
  if '0' ≤ c && c ≤ '9' then some (c.toNat - 0x30) else none

/-- Whether the character is an ASCII digit. -/
def isDigit (c : Char) : Bool := (digit? c).isSome

/-- The number that digits write after a number already read; none if
another character is among them. -/
def digitsAfter? (acc : Nat) : List Char → Option Nat
  | [] => some acc
  | c :: rest =>
      match digit? c with
      | some d => digitsAfter? (10 * acc + d) rest
      | none => none

/-- The number written by one or more digits. -/
def readNat? : List Char → Option Nat
  | [] => none
  | cs => digitsAfter? 0 cs

/-- The number written by one or more digits after an optional plus. -/
def readUnsigned? : List Char → Option Nat
  | '+' :: cs => readNat? cs
  | cs => readNat? cs

/-- The integer written by one or more digits after an optional sign. -/
def readInt? : List Char → Option Int
  | '-' :: cs => (readNat? cs).map fun n => -(n : Int)
  | '+' :: cs => (readNat? cs).map fun n => (n : Int)
  | cs => (readNat? cs).map fun n => (n : Int)

/-- The integer written, if it lies in the range. Text never wraps: a
number that does not fit is refused. -/
def readIntIn? (low high : Int) (s : String) : Option Int :=
  match readInt? s.toList with
  | some i => if low ≤ i ∧ i ≤ high then some i else none
  | none => none

theorem digit?_digitChar : ∀ d < 10, digit? (digitChar d) = some d := by
  decide

end ContentProperties.Numeric
