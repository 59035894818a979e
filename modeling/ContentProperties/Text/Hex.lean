/-
Hexadecimal digits: how a digit is written in each case, how one is
read in either, and numbers written with at least a given count of
digits. Shared by the name codecs, quoted texts and printed objects.
-/

namespace ContentProperties.Text

-- ================================================= single digits

/-- The lower-case digit for a number below sixteen. -/
def hexLower (d : Nat) : Char :=
  if d < 10 then Char.ofNat (0x30 + d) else Char.ofNat (0x57 + d)

/-- The upper-case digit for a number below sixteen. -/
def hexUpper (d : Nat) : Char :=
  if d < 10 then Char.ofNat (0x30 + d) else Char.ofNat (0x37 + d)

/-- The number a hexadecimal digit of either case stands for. -/
def hexDigit? (c : Char) : Option Nat :=
  if '0' ≤ c && c ≤ '9' then some (c.toNat - 0x30)
  else if 'a' ≤ c && c ≤ 'f' then some (c.toNat - 0x57)
  else if 'A' ≤ c && c ≤ 'F' then some (c.toNat - 0x37)
  else none

/-- Whether the character is a hexadecimal digit. -/
def isHexDigit (c : Char) : Bool := (hexDigit? c).isSome

theorem hexDigit?_hexLower : ∀ d < 16, hexDigit? (hexLower d) = some d := by
  decide

-- ================================================= numbers

/-- The lower-case digits of a number without leading zeros; none for
zero. The rest of the digits is a smaller number, so the recursion
ends. -/
def hexDigits (n : Nat) : List Char :=
  if n = 0 then [] else hexDigits (n / 16) ++ [hexLower (n % 16)]

/-- A number in lower-case digits, padded with zeros up to `width`. -/
def hexPadded (width n : Nat) : List Char :=
  let digits := hexDigits n
  List.replicate (width - digits.length) '0' ++ digits

/-- The number that hexadecimal digits write, most significant first;
none if another character is among them. -/
def hexValue? (cs : List Char) : Option Nat :=
  cs.foldl
    (fun acc c => do
      let n ← acc
      let d ← hexDigit? c
      pure (16 * n + d))
    (some 0)

end ContentProperties.Text
