/-
Integers as texts. A text that is converted to an integer type is never
narrowed: it converts if it writes an integer of the type, and to that
integer. So a number and the text of it convert alike as long as the
number is of the type, and part where the number wraps and the text
yields nothing.

# Method

What a text writes is said without the reader (`WritesInteger`): a sign or
none, and digits that count as in any place-value system. The reader goes
from the first digit on, so the induction has to carry what was read
before, shifted by the digits still to come (`digitsAfter?_of_isDigit`).
From there on the four types are one family: each reads the text in the
bounds of its range (`convert_text`), and an entry of a scalar is
converted to each of them as its converter is (`convert_integer`).
-/
import ContentProperties.Proofs.Conversion.Coercion
import ContentProperties.Proofs.Conversion.Narrowing
import ContentProperties.Proofs.Numeric.Digits
import Mathlib.Data.Nat.Digits.Defs

namespace ContentProperties

namespace Numeric

-- =============================================== what a text writes

/-- The number that digits write, the first digit counting most. -/
def digitsValue (digits : List Char) : Nat :=
  Nat.ofDigits 10 (digits.reverse.map fun c => c.toNat - '0'.toNat)

/-- One or more decimal digits. -/
def IsDigits (cs : List Char) : Prop :=
  cs ≠ [] ∧ ∀ c ∈ cs, c.isDigit = true

/-- The text is one or more digits, behind one sign or none, and writes the
integer. -/
inductive WritesInteger : List Char → Int → Prop where
  | unsigned {digits : List Char} (h : IsDigits digits) :
      WritesInteger digits (digitsValue digits)
  | plus {digits : List Char} (h : IsDigits digits) :
      WritesInteger ('+' :: digits) (digitsValue digits)
  | minus {digits : List Char} (h : IsDigits digits) :
      WritesInteger ('-' :: digits) (-digitsValue digits)

-- ======================================================== the reader

variable {c : Char} {cs : List Char} {i : Int} {n : Nat}

theorem digitsValue_cons (c : Char) (rest : List Char) :
    digitsValue (c :: rest) =
      (c.toNat - '0'.toNat) * 10 ^ rest.length + digitsValue rest := by
  unfold digitsValue
  rw [List.reverse_cons, List.map_append, Nat.ofDigits_append,
    List.length_map, List.length_reverse, List.map_singleton,
    Nat.ofDigits_singleton]
  ring

theorem digit?_of_isDigit (hc : c.isDigit = true) :
    digit? c = some (c.toNat - '0'.toNat) := by
  have hrange : ('0' ≤ c && c ≤ '9') = true := by
    simpa [Char.isDigit, Char.le_def] using hc
  unfold digit?
  rw [if_pos hrange]
  rfl

theorem isDigit_of_digit? (h : digit? c = some n) : c.isDigit = true := by
  unfold digit? at h
  split at h
  · next hrange => simpa [Char.isDigit, Char.le_def] using hrange
  · cases h

/-- Digits are read behind what was read before. -/
theorem digitsAfter?_of_isDigit (acc : Nat)
    (hcs : ∀ c ∈ cs, c.isDigit = true) :
    digitsAfter? acc cs =
      some (acc * 10 ^ cs.length + digitsValue cs) := by
  induction cs generalizing acc with
  | nil =>
    simp [digitsAfter?, digitsValue]
  | cons c rest ih =>
    obtain ⟨hc, hrest⟩ := List.forall_mem_cons.1 hcs
    simp only [digitsAfter?, digit?_of_isDigit hc]
    rw [ih _ hrest, digitsValue_cons, List.length_cons]
    congr 1
    ring

/-- Whatever is read is digits. -/
theorem isDigit_of_digitsAfter? {acc : Nat}
    (h : digitsAfter? acc cs = some n) : ∀ c ∈ cs, c.isDigit = true := by
  induction cs generalizing acc with
  | nil => simp
  | cons c rest ih =>
    unfold digitsAfter? at h
    split at h
    · next hdigit =>
      rw [List.forall_mem_cons]
      exact ⟨isDigit_of_digit? hdigit, ih h⟩
    · cases h

theorem readNat?_eq_some_iff :
    readNat? cs = some n ↔ IsDigits cs ∧ n = digitsValue cs := by
  cases cs with
  | nil =>
    constructor
    · intro h
      cases h
    · rintro ⟨⟨hne, -⟩, -⟩
      exact absurd rfl hne
  | cons c rest =>
    have hread : ∀ hdigits : ∀ d ∈ c :: rest, d.isDigit = true,
        readNat? (c :: rest) = some (digitsValue (c :: rest)) := by
      intro hdigits
      show digitsAfter? 0 (c :: rest) = _
      rw [digitsAfter?_of_isDigit 0 hdigits, Nat.zero_mul, Nat.zero_add]
    constructor
    · intro h
      have hafter : digitsAfter? 0 (c :: rest) = some n := h
      have hdigits := isDigit_of_digitsAfter? hafter
      rw [hread hdigits] at h
      exact ⟨⟨List.cons_ne_nil c rest, hdigits⟩, (Option.some.inj h).symm⟩
    · rintro ⟨⟨-, hdigits⟩, rfl⟩
      exact hread hdigits

/-- A text is read as the integer it writes, and only then. -/
theorem readInt?_iff_writes : readInt? cs = some i ↔ WritesInteger cs i := by
  constructor
  · intro h
    unfold readInt? at h
    split at h
    all_goals
      obtain ⟨_, hlift, rfl⟩ := Option.map_eq_some_iff.1 h
      obtain ⟨n, hread, hn⟩ := Option.bind_eq_some_iff.1 hlift
      cases hn
      obtain ⟨hdigits, rfl⟩ := readNat?_eq_some_iff.1 hread
    · exact .minus hdigits
    · exact .plus hdigits
    · exact .unsigned hdigits
  · rintro (hdigits | hdigits | hdigits)
    all_goals have hread := readNat?_eq_some_iff.2 ⟨hdigits, rfl⟩
    · -- a digit is no sign
      unfold readInt?
      split
      · exact absurd (hdigits.2 _ List.mem_cons_self) (by decide)
      · exact absurd (hdigits.2 _ List.mem_cons_self) (by decide)
      · simp [hread]
    · simp [readInt?, hread]
    · simp [readInt?, hread]

theorem readIntIn?_eq_some_iff {low high : Int} {text : String} :
    readIntIn? low high text = some i ↔
      WritesInteger text.toList i ∧ low ≤ i ∧ i ≤ high := by
  unfold readIntIn?
  constructor
  · intro h
    split at h
    · next j hread =>
      split at h
      · next hrange =>
        cases h
        exact ⟨readInt?_iff_writes.1 hread, hrange⟩
      · cases h
    · cases h
  · rintro ⟨hwrites, hrange⟩
    rw [readInt?_iff_writes.2 hwrites]
    simp only [hrange, and_self, if_true]

/-- The digits of a number are digits, and write it. -/
theorem isDigits_natDigits (n : Nat) :
    IsDigits (natDigits n) ∧ n = digitsValue (natDigits n) := by
  apply readNat?_eq_some_iff.1
  have hread := digitsAfter?_natDigits 0 n
  rw [Nat.zero_mul, Nat.zero_add] at hread
  cases hdigits : natDigits n with
  | nil => exact absurd hdigits (natDigits_ne_nil n)
  | cons c rest =>
    rw [hdigits] at hread
    exact hread

/-- An integer is written by its text. -/
theorem writesInteger_intText (i : Int) :
    WritesInteger (intText i).toList i := by
  obtain ⟨hdigits, hvalue⟩ := isDigits_natDigits i.natAbs
  rw [intText, String.toList_ofList, intDigits]
  by_cases hneg : i < 0
  · have hwrites := WritesInteger.minus hdigits
    rw [← hvalue, Int.ofNat_natAbs_of_nonpos hneg.le, Int.neg_neg] at hwrites
    rwa [if_pos hneg]
  · have hwrites := WritesInteger.unsigned hdigits
    rw [← hvalue, Int.natAbs_of_nonneg (not_lt.1 hneg)] at hwrites
    rwa [if_neg hneg]

end Numeric

open Numeric

-- ==================================================== conversions

/-- A text that is read in bounds, by a type that has an integer for each
of the bounded ones. -/
theorem ok_of_parsed_iff {α : Type} {low high i : Int} {of : Int → α}
    {value : α → Int} (hvalue : ∀ j, low ≤ j → j ≤ high → value (of j) = j)
    (text target : String) :
    value <$> Converter.parsed text target
        ((readIntIn? low high text).map of) = .ok i ↔
      WritesInteger text.toList i ∧ low ≤ i ∧ i ≤ high := by
  rw [← readIntIn?_eq_some_iff]
  cases hread : readIntIn? low high text with
  | none => simp [Converter.parsed]
  | some j =>
    obtain ⟨-, hlow, hhigh⟩ := readIntIn?_eq_some_iff.1 hread
    simp [Converter.parsed, hvalue j hlow hhigh]

namespace IntegerType

variable {t : IntegerType} {i : Int}

/-- A text converts to a type exactly if it writes an integer of the type,
and to that integer. -/
theorem convert_text (t : IntegerType) (text : String) :
    t.convert (.text text) = .ok i ↔
      WritesInteger text.toList i ∧ t.Holds i := by
  have hholds : ∀ high : Int, (2 ^ (t.bits - 1) : Int) = high + 1 →
      (t.Holds i ↔ -2 ^ (t.bits - 1) ≤ i ∧ i ≤ high) := by
    intro high hhigh
    unfold Holds
    omega
  cases t with
  | byte =>
    rw [hholds 127 rfl]
    exact ok_of_parsed_iff (fun j hlow hhigh => Int8.toInt_ofInt_of_le hlow
      (Int.lt_add_one_of_le hhigh)) text "byte"
  | short =>
    rw [hholds 32767 rfl]
    exact ok_of_parsed_iff (fun j hlow hhigh => Int16.toInt_ofInt_of_le hlow
      (Int.lt_add_one_of_le hhigh)) text "short"
  | int =>
    rw [hholds 2147483647 rfl]
    exact ok_of_parsed_iff (fun j hlow hhigh => Int32.toInt_ofInt_of_le hlow
      (Int.lt_add_one_of_le hhigh)) text "int"
  | long =>
    rw [hholds 9223372036854775807 rfl]
    exact ok_of_parsed_iff (fun j hlow hhigh => Int64.toInt_ofInt_of_le hlow
      (Int.lt_add_one_of_le hhigh)) text "long"

theorem toOption_convert_text (t : IntegerType) (text : String) :
    (t.convert (.text text)).toOption = some i ↔
      WritesInteger text.toList i ∧ t.Holds i := by
  rw [← convert_text]
  cases t.convert (.text text) <;> simp [Except.toOption]

/-- The text of an integer converts to the types that the integer is of,
and to no other. -/
theorem toOption_convert_intText (t : IntegerType) (i : Int) :
    (t.convert (.text (intText i))).toOption =
      if t.Holds i then some i else none := by
  by_cases hholds : t.Holds i
  · rw [if_pos hholds]
    exact (t.toOption_convert_text _).2 ⟨writesInteger_intText i, hholds⟩
  · rw [if_neg hholds, Option.eq_none_iff_forall_ne_some]
    intro j hj
    obtain ⟨hwrites, hj⟩ := (t.toOption_convert_text _).1 hj
    -- a text writes one integer only
    have hsame := (readInt?_iff_writes.2 hwrites).symm.trans
      (readInt?_iff_writes.2 (writesInteger_intText i))
    cases hsame
    exact hholds hj

end IntegerType

-- ======================================================== entries

namespace Entry

variable {σ : Type} {session : Session σ} {provider : Provider}
variable {e : Entry σ} {v : Value} {w : World σ}

/-- To an integer type, a value is converted as its converter is. -/
theorem convertPlain_integer (t : IntegerType) :
    convertPlain session e v t.valueType =
      Converted.value <$>
        Attempt.ofConversion (t.value <$> t.convert (.of v)) := by
  cases t <;>
    simp [convertPlain, IntegerType.valueType, IntegerType.convert,
      IntegerType.value]

/-- An entry of one scalar is converted to an integer type as its converter
is. It is never broken off, and nothing is touched. -/
theorem convert_integer (hv : v.isExactScalar = true)
    (hsingle : e.isArray = false) (hvalue : e.value w = (.ok v, w))
    (t : IntegerType) :
    e.convert session provider t.valueType w =
      (.ok ((t.convert (.of v)).toOption.map fun i => .value (t.value i)),
        w) := by
  have htarget : t.valueType.isCoercion = true := by cases t <;> rfl
  have harray : t.valueType.isArray = false := by cases t <;> rfl
  rw [run_convert_single hsingle hvalue harray,
    convertScalar_eq_convertPlain hv htarget, convertPlain_integer]
  cases t.convert (.of v) <;> rfl

/-- A number in 64 bits becomes its text. -/
theorem convert_long_string (hsingle : e.isArray = false) {n : Int64}
    (hvalue : e.value w = (.ok (.long n), w)) :
    e.convert session provider .string w =
      (.ok (some (.value (.string (intText n.toInt)))), w) := by
  rw [run_convert_single hsingle hvalue rfl,
    convertScalar_eq_convertPlain rfl rfl]
  rfl

-- ==================================================== the comparison

/-- Integer texts convert like their numbers, except that they never wrap.
Every number in 64 bits has a text that it converts to. A property with
that text converts back to the number, converts to each integer type that
the number is of as the number does, and to no other. In general, one text
converts to an integer type exactly if it is one or more digits behind a
sign or none and writes an integer of the type, and the result is that
integer. -/
theorem integer_texts_never_wrap (session : Session σ) (provider : Provider)
    (name : String) :
    (∀ n : Int64, ∃ (text : String) (number written : Entry σ), ∀ w,
      ofValue session (.long n) w = (.ok number, w) ∧
      ofProperty (Memory.StoredProperty.single name .string
        (.string text)).toProperty w = (.ok written, w) ∧
      number.convert session provider .string w =
        (.ok (some (.value (.string text))), w) ∧
      written.convert session provider .long w =
        (.ok (some (.value (.long n))), w) ∧
      ∀ t : IntegerType,
        written.convert session provider t.valueType w =
          (.ok (if t.Holds n.toInt then some (.value (t.value n.toInt))
            else none), w) ∧
        (t.Holds n.toInt →
          written.convert session provider t.valueType w =
            number.convert session provider t.valueType w)) ∧
    ∀ (text : String) (e : Entry σ) (w : World σ), e.isArray = false →
      e.value w = (.ok (.string text), w) → ∀ t : IntegerType,
      ∃ c?, e.convert session provider t.valueType w = (.ok c?, w) ∧
        ∀ c, c? = some c ↔
          ∃ i, WritesInteger text.toList i ∧ t.Holds i ∧
            c = .value (t.value i) := by
  constructor
  · intro n
    let text := intText n.toInt
    let p : Property σ := (Memory.StoredProperty.single name .string
      (.string text)).toProperty
    have hp : ∀ w, p.value w = (.ok (.string text), w) := fun _ => rfl
    obtain ⟨written, hwritten, hsingle, hvalue, -⟩ := exists_ofProperty hp
    have hconvert : ∀ (t : IntegerType) w,
        written.convert session provider t.valueType w =
          (.ok (if t.Holds n.toInt then some (.value (t.value n.toInt))
            else none), w) := by
      intro t w
      rw [convert_integer rfl hsingle (hvalue w)]
      show (Except.ok ((t.convert (.text text)).toOption.map _), w) = _
      rw [t.toOption_convert_intText]
      by_cases hholds : t.Holds n.toInt
      · rw [if_pos hholds, if_pos hholds]
        rfl
      · rw [if_neg hholds, if_neg hholds]
        rfl
    have hlong : IntegerType.long.Holds n.toInt :=
      ⟨n.le_toInt, n.toInt_lt⟩
    refine ⟨text, ⟨.pending (.long n), false⟩, written, fun w => ?_⟩
    refine ⟨ofValue_of_isExactScalar rfl w, hwritten w,
      convert_long_string rfl rfl, ?_, ?_⟩
    · have hback := hconvert .long w
      rw [if_pos hlong] at hback
      simpa [IntegerType.valueType, IntegerType.value] using hback
    · intro t
      refine ⟨hconvert t w, fun hholds => ?_⟩
      rw [hconvert t w, if_pos hholds,
        convert_integer (v := .long n) rfl rfl rfl,
        IntegerType.convert_of_integer? (n := .long n) rfl rfl,
        IntegerType.wrap_of_holds hholds]
      rfl
  · intro text e w hsingle hvalue t
    refine ⟨_, convert_integer rfl hsingle hvalue t, fun c => ?_⟩
    rw [Option.map_eq_some_iff]
    constructor
    · rintro ⟨i, hi, rfl⟩
      obtain ⟨hwrites, hholds⟩ := (t.toOption_convert_text text).1 hi
      exact ⟨i, hwrites, hholds, rfl⟩
    · rintro ⟨i, hwrites, hholds, rfl⟩
      exact ⟨i, (t.toOption_convert_text text).2 ⟨hwrites, hholds⟩, rfl⟩

/-- As a byte, -129 wraps to 127 and its text is nothing; as a short, both
are -129. A sign and zeros in front do no harm to a text. -/
theorem conversions_of_minus_129 :
    (∃ number written : Entry Memory.Repository,
      number.convert (Memory.session 0) ⟨.default, none⟩ .byte
        ⟨.empty, .empty⟩ =
          (.ok (some (.value (.byte 127))), ⟨.empty, .empty⟩) ∧
      written.convert (Memory.session 0) ⟨.default, none⟩ .byte
        ⟨.empty, .empty⟩ = (.ok none, ⟨.empty, .empty⟩) ∧
      written.convert (Memory.session 0) ⟨.default, none⟩ .short
        ⟨.empty, .empty⟩ =
          (.ok (some (.value (.short (-129)))), ⟨.empty, .empty⟩)) ∧
    Entry.convert (Memory.session 0) ⟨.default, none⟩
      ⟨.pending (.string "+007"), false⟩ .byte ⟨.empty, .empty⟩ =
        (.ok (some (.value (.byte 7))), ⟨.empty, .empty⟩) := by
  obtain ⟨hnumbers, htexts⟩ := integer_texts_never_wrap (Memory.session 0)
    ⟨.default, none⟩ "count"
  constructor
  · obtain ⟨text, number, written, hall⟩ := hnumbers (-129)
    obtain ⟨hnumber, -, -, -, htypes⟩ := hall ⟨.empty, .empty⟩
    obtain rfl : (⟨.pending (.long (-129)), false⟩ : Entry _) = number :=
      Except.ok.inj (congrArg Prod.fst hnumber)
    refine ⟨⟨.pending (.long (-129)), false⟩, written, ?_, (htypes .byte).1,
      (htypes .short).1⟩
    rfl
  · obtain ⟨c?, hconvert, hc⟩ := htexts "+007"
      ⟨.pending (.string "+007"), false⟩ ⟨.empty, .empty⟩ rfl rfl .byte
    have hdigits : IsDigits ['0', '0', '7'] := ⟨by simp, by simp⟩
    have hvalue : digitsValue ['0', '0', '7'] = 7 := by
      simp [digitsValue, Nat.ofDigits_cons]
    have hwrites : WritesInteger "+007".toList 7 := by
      have h := WritesInteger.plus hdigits
      rwa [hvalue] at h
    obtain rfl := (hc (.value (.byte 7))).2 ⟨7, hwrites, by decide, rfl⟩
    exact hconvert

end Entry

end ContentProperties
