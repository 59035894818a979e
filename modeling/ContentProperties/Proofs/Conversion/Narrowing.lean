/-
Narrowing. A number becomes an integer of some width in two steps that
have nothing to do with each other: what it stands for is cut to an
integer, toward zero, and of that integer the low bits are kept. Which
kinds of number are passed through on the way is not to be seen in the
result, though the conversions to the narrow types go through the wide
ones, decimals through 64 bits and timestamps through their count of
milliseconds.

# Method

The four integer types are one family, told apart by their width only.
Keeping the low bits is `IntegerType.wrap`, the balanced residue modulo a
power of two; keeping few bits of what is left of many is keeping the few
(`wrap_wrap`), and that carries every chain of conversions. A source that
is a number is converted by `wrap` (`convert_of_integer?`), and so it is
enough to know its integer up to the widest `wrap`.
-/
import ContentProperties.Conversion.Entry
import Mathlib.Data.Int.ModEq
import Mathlib.Data.Rat.Floor

namespace ContentProperties

open Time

-- ======================================================== integer types

/-- The targets that are integers of a fixed width. -/
inductive IntegerType where
  | byte
  | short
  | int
  | long

namespace IntegerType

def bits : IntegerType → Nat
  | byte => 8
  | short => 16
  | int => 32
  | long => 64

/-- The type as one that a value may be asked to have. -/
def valueType : IntegerType → ValueType
  | byte => .byte
  | short => .short
  | int => .int
  | long => .long

/-- The integer lies in the range of the type. -/
def Holds (t : IntegerType) (i : Int) : Prop :=
  -2 ^ (t.bits - 1) ≤ i ∧ i < 2 ^ (t.bits - 1)

instance (t : IntegerType) (i : Int) : Decidable (t.Holds i) :=
  inferInstanceAs (Decidable (_ ∧ _))

/-- The value of the type for an integer. -/
def value : IntegerType → Int → Value
  | byte, i => .byte (Int8.ofInt i)
  | short, i => .short (Int16.ofInt i)
  | int, i => .int (Int32.ofInt i)
  | long, i => .long (Int64.ofInt i)

/-- The conversion of a source to the type, and the integer that it
yields. -/
def convert : IntegerType → Converter → Conversion Int
  | byte, c => Int8.toInt <$> c.toByte
  | short, c => Int16.toInt <$> c.toShort
  | int, c => Int32.toInt <$> c.toInt
  | long, c => Int64.toInt <$> c.toLong

-- ====================================================== keeping low bits

/-- The integer of the type with the same low bits. -/
def wrap (t : IntegerType) (i : Int) : Int := i.bmod (2 ^ t.bits)

variable {t narrow wide : IntegerType} {i j : Int}

/-- The range of a type is one turn of its residues. -/
theorem two_mul_half (t : IntegerType) :
    (2 ^ t.bits : Int) = 2 * 2 ^ (t.bits - 1) := by
  cases t <;> rfl

theorem holds_wrap (t : IntegerType) (i : Int) : t.Holds (t.wrap i) := by
  have hpos : 0 < 2 ^ t.bits := Nat.two_pow_pos t.bits
  have hlow := Int.le_bmod (x := i) hpos
  have hhigh := Int.bmod_lt (x := i) hpos
  have hturn := two_mul_half t
  unfold Holds wrap
  push_cast at hlow hhigh
  omega

theorem wrap_of_holds (h : t.Holds i) : t.wrap i = i := by
  obtain ⟨hlow, hhigh⟩ := h
  have hturn := two_mul_half t
  apply Int.bmod_eq_of_le
  · push_cast
    omega
  · push_cast
    omega

theorem wrap_modEq (t : IntegerType) (i : Int) :
    t.wrap i ≡ i [ZMOD 2 ^ t.bits] := by
  have h : t.wrap i % (2 ^ t.bits : Nat) = i % (2 ^ t.bits : Nat) :=
    Int.bmod_emod
  push_cast at h
  exact h

/-- There is only one integer of the type with the same low bits. -/
theorem eq_wrap_of_modEq (h : t.Holds j) (hmod : j ≡ i [ZMOD 2 ^ t.bits]) :
    j = t.wrap i := by
  have hresidue : j % (2 ^ t.bits : Nat) = i % (2 ^ t.bits : Nat) := by
    push_cast
    exact hmod
  calc j = t.wrap j := (wrap_of_holds h).symm
    _ = (j % (2 ^ t.bits : Nat)).bmod (2 ^ t.bits) := (Int.emod_bmod ..).symm
    _ = (i % (2 ^ t.bits : Nat)).bmod (2 ^ t.bits) := by rw [hresidue]
    _ = t.wrap i := Int.emod_bmod ..

/-- Few of the low bits are few of many of them. -/
theorem wrap_wrap (h : narrow.bits ≤ wide.bits) (i : Int) :
    narrow.wrap (wide.wrap i) = narrow.wrap i :=
  Int.bmod_bmod_of_dvd (Nat.pow_dvd_pow 2 h)

theorem bits_le_long (t : IntegerType) : t.bits ≤ long.bits := by
  cases t <;> decide

end IntegerType

-- ============================================================== numbers

/-- The integer that a number is without its fraction. Floating-point
numbers are apart: they do not wrap. -/
def Number.integer? : Number → Option Int
  | .byte v => some v.toInt
  | .short v => some v.toInt
  | .int v => some v.toInt
  | .long v => some v.toInt
  | .decimal v => some v.truncate
  | .float _ | .double _ => none

namespace Number

variable {n : Number} {x : Int}

theorem toInt_toLong (h : n.integer? = some x) :
    n.toLong.toInt = IntegerType.long.wrap x := by
  cases n with
  | float _ | double _ => cases h
  | decimal v =>
    cases h
    exact Int64.toInt_ofInt
  | byte v | short v | int v | long v =>
    cases h
    have hfits := v.le_toInt
    have hfits' := v.toInt_lt
    rw [IntegerType.wrap_of_holds]
    · simp [toLong]
    · constructor <;> simp only [IntegerType.bits] <;> omega

theorem toInt_toInt (h : n.integer? = some x) :
    n.toInt.toInt = IntegerType.int.wrap x := by
  have hnarrow : n.toInt = n.toLong.toInt32 := by
    cases n with
    | float _ | double _ => cases h
    | _ => rfl
  have hbits : IntegerType.int.bits ≤ IntegerType.long.bits := by decide
  rw [hnarrow, Int64.toInt_toInt32, toInt_toLong h]
  exact IntegerType.wrap_wrap hbits x

end Number

namespace IntegerType

variable {t : IntegerType} {c : Converter} {n : Number} {x : Int}

/-- A source that is a number keeps its low bits. -/
theorem convert_of_integer? (hc : c.numberOrText = .inl n)
    (hn : n.integer? = some x) (t : IntegerType) :
    t.convert c = .ok (t.wrap x) := by
  have hint := Number.toInt_toInt hn
  cases t with
  | byte =>
    have hbits : byte.bits ≤ int.bits := by decide
    have hbyte : n.toInt.toInt8.toInt = byte.wrap x := by
      rw [Int32.toInt_toInt8, hint]
      exact wrap_wrap hbits x
    simp [convert, Converter.toByte, hc, hbyte]
  | short =>
    have hbits : short.bits ≤ int.bits := by decide
    have hshort : n.toInt.toInt16.toInt = short.wrap x := by
      rw [Int32.toInt_toInt16, hint]
      exact wrap_wrap hbits x
    simp [convert, Converter.toShort, hc, hshort]
  | int => simp [convert, Converter.toInt, hc, hint]
  | long => simp [convert, Converter.toLong, hc, Number.toInt_toLong hn]

/-- The value of a type is a source that is its integer. -/
theorem numberOrText_value (t : IntegerType) (x : Int) :
    ∃ n, (Converter.of (t.value x)).numberOrText = .inl n ∧
      n.integer? = some (t.wrap x) := by
  cases t with
  | byte => exact ⟨_, rfl, congrArg some Int8.toInt_ofInt⟩
  | short => exact ⟨_, rfl, congrArg some Int16.toInt_ofInt⟩
  | int => exact ⟨_, rfl, congrArg some Int32.toInt_ofInt⟩
  | long => exact ⟨_, rfl, congrArg some Int64.toInt_ofInt⟩

end IntegerType

-- =========================================================== quantities

/-- The rational number cut to an integer, toward zero. -/
def towardZero (q : ℚ) : ℤ := if 0 ≤ q then ⌊q⌋ else ⌈q⌉

theorem towardZero_intCast (i : ℤ) : towardZero i = i := by
  simp [towardZero]

/-- Division of integers toward zero is division cut toward zero. -/
theorem towardZero_div (n : ℤ) {d : ℕ} (hd : 0 < d) :
    towardZero ((n : ℚ) / d) = n.tdiv d := by
  have hpos : (0 : ℚ) < d := Nat.cast_pos.2 hd
  unfold towardZero
  by_cases hn : 0 ≤ n
  · have hq : (0 : ℚ) ≤ n / d := div_nonneg (Int.cast_nonneg hn) hpos.le
    rw [if_pos hq, Rat.floor_intCast_div_natCast,
      Int.tdiv_eq_ediv_of_nonneg hn]
  · have hq : ¬(0 : ℚ) ≤ n / d := by
      rw [not_le]
      exact div_neg_of_neg_of_pos (Int.cast_lt_zero.2 (not_le.1 hn)) hpos
    have hneg : 0 ≤ -n := by omega
    rw [if_neg hq, Rat.ceil_intCast_div_natCast,
      ← Int.tdiv_eq_ediv_of_nonneg hneg, Int.neg_tdiv, neg_neg]

/-- The number that a value stands for, if it stands for one exactly: a
truth value for zero or one, a timestamp for the milliseconds since the
start of 1970, rounded down. -/
def Value.quantity? : Value → Option ℚ
  | .byte v => some v.toInt
  | .short v => some v.toInt
  | .int v => some v.toInt
  | .long v => some v.toInt
  | .decimal v => some (v.unscaled / 10 ^ v.scale)
  | .bool b => some (if b then 1 else 0)
  | .date i => some ⌊(i.nanos : ℚ) / 1000000⌋
  | .calendar t => some ⌊(t.nanos : ℚ) / 1000000⌋
  | .zoned t => some ⌊(t.nanos : ℚ) / 1000000⌋
  | _ => none

/-- What a decimal is without its fraction. -/
theorem Decimal.truncate_eq (d : Decimal) :
    d.truncate = towardZero (d.unscaled / 10 ^ d.scale) := by
  have hpower : ((10 : ℚ) ^ d.scale) = (Numeric.tenTo d.scale : ℕ) := by
    simp [Numeric.tenTo]
  rw [hpower, towardZero_div _ (Numeric.tenTo_pos d.scale)]
  rfl

/-- Milliseconds are rounded down. -/
theorem floor_nanos (nanos : Int) :
    ⌊(nanos : ℚ) / 1000000⌋ = nanos / millisecond :=
  Rat.floor_intCast_div_natCast nanos 1000000

/-- A value that stands for a number is a source that is a number, and has
the low bits of what it stands for. -/
theorem Value.numberOrText_of_quantity? {v : Value} {q : ℚ}
    (h : v.quantity? = some q) :
    ∃ n x, (Converter.of v).numberOrText = .inl n ∧ n.integer? = some x ∧
      IntegerType.long.wrap x = IntegerType.long.wrap (towardZero q) := by
  -- The count of milliseconds is taken to 64 bits at once.
  have hmillis : ∀ nanos : Int,
      IntegerType.long.wrap (Int64.ofInt (nanos / millisecond)).toInt =
        IntegerType.long.wrap (towardZero ⌊(nanos : ℚ) / 1000000⌋) := by
    intro nanos
    rw [towardZero_intCast, floor_nanos, Int64.toInt_ofInt]
    exact IntegerType.wrap_wrap IntegerType.long.bits_le_long _
  cases v with
  | byte v | short v | int v | long v =>
    cases h
    exact ⟨_, _, rfl, rfl, by rw [towardZero_intCast]⟩
  | decimal d =>
    cases h
    exact ⟨_, _, rfl, rfl, by rw [d.truncate_eq]⟩
  | bool b =>
    cases h
    cases b with
    | false => exact ⟨_, _, rfl, rfl, congrArg _ (towardZero_intCast 0).symm⟩
    | true => exact ⟨_, _, rfl, rfl, congrArg _ (towardZero_intCast 1).symm⟩
  | date i =>
    cases h
    exact ⟨_, _, rfl, rfl, hmillis i.nanos⟩
  | calendar t | zoned t =>
    cases h
    exact ⟨_, _, rfl, rfl, hmillis t.nanos⟩
  | _ => cases h

/-- Whatever stands for a number is narrowed in one step. Its conversion
to an integer type yields the one integer of the type that has the low
bits of the number without its fraction, hence that integer itself if it
is of the type. To convert to a wide type first and from there to a
narrow one makes no difference. -/
theorem Value.narrowed_in_one_step {v : Value} {q : ℚ}
    (h : v.quantity? = some q) :
    (∀ t : IntegerType, ∃ i, t.convert (.of v) = .ok i ∧ t.Holds i ∧
      i ≡ towardZero q [ZMOD 2 ^ t.bits] ∧
      (∀ j, t.Holds j → j ≡ towardZero q [ZMOD 2 ^ t.bits] → j = i) ∧
      (t.Holds (towardZero q) → i = towardZero q)) ∧
    ∀ narrow wide : IntegerType, narrow.bits ≤ wide.bits → ∃ i,
      wide.convert (.of v) = .ok i ∧
      narrow.convert (.of (wide.value i)) = narrow.convert (.of v) := by
  obtain ⟨n, x, hv, hn, hx⟩ := v.numberOrText_of_quantity? h
  have hwrap : ∀ t : IntegerType, t.wrap x = t.wrap (towardZero q) := by
    intro t
    rw [← IntegerType.wrap_wrap t.bits_le_long x, hx,
      IntegerType.wrap_wrap t.bits_le_long]
  have hconvert : ∀ t : IntegerType,
      t.convert (.of v) = .ok (t.wrap (towardZero q)) := by
    intro t
    rw [IntegerType.convert_of_integer? hv hn, hwrap]
  constructor
  · intro t
    refine ⟨t.wrap (towardZero q), hconvert t, t.holds_wrap _,
      t.wrap_modEq _, ?_, ?_⟩
    · intro j hj hmod
      exact IntegerType.eq_wrap_of_modEq hj hmod
    · intro hfits
      exact IntegerType.wrap_of_holds hfits
  · intro narrow wide hbits
    obtain ⟨m, hm, hi⟩ := wide.numberOrText_value (wide.wrap (towardZero q))
    refine ⟨wide.wrap (towardZero q), hconvert wide, ?_⟩
    rw [IntegerType.convert_of_integer? hm hi, hconvert,
      IntegerType.wrap_wrap hbits, IntegerType.wrap_wrap hbits]

/-- The least decimal with one place has 29 digits. Without its half it is
103 as a byte, also by way of 64 bits. -/
theorem Value.least_tenths_as_byte :
    ∃ d : Decimal,
      (Value.decimal d).quantity? =
        some (-79228162514264337593543950335 / 10) ∧
      IntegerType.byte.convert (.of (.decimal d)) = .ok 103 ∧
      ∃ i, IntegerType.long.convert (.of (.decimal d)) = .ok i ∧
        IntegerType.byte.convert (.of (IntegerType.long.value i)) =
          .ok 103 := by
  let d : Decimal :=
    ⟨true, 79228162514264337593543950335, 1, by decide, by decide⟩
  have hq : (Value.decimal d).quantity? =
      some (-79228162514264337593543950335 / 10) := by
    simp [Value.quantity?, Decimal.unscaled, d]
  have hcut : towardZero (-79228162514264337593543950335 / 10) =
      -7922816251426433759354395033 := by
    have h := towardZero_div (-79228162514264337593543950335)
      (d := 10) (by decide)
    push_cast at h
    exact h
  obtain ⟨hsteps, hchains⟩ := Value.narrowed_in_one_step hq
  obtain ⟨i, hi, -, -, honly, -⟩ := hsteps .byte
  have hbyte : (103 : Int) = i := by
    apply honly 103
    · decide
    · rw [hcut]
      decide
  obtain ⟨j, hj, hchain⟩ := hchains .byte .long (by decide)
  rw [← hbyte] at hi
  exact ⟨d, hq, hi, j, hj, hchain.trans hi⟩

end ContentProperties
