/-
The text of a timestamp is read back. Writing drops what is below a
millisecond of what the clock shows, and what is below a minute of the
offset; reading gives the rest.

# Method

Every part of the text is a number of fixed width behind one mark, and
is read with any text behind it (`takeDigits?_paddedDigits`), so the
clock's part is one reading after the other (`readLocal?_localChars`) and
only the arithmetic of hours, minutes and seconds is left. The offset is
cut off at the end by its length, which its last character tells
(`readTimestamp?_append`). What is read is what the clock shows to the
millisecond, at the offset to the minute (`readTimestamp?_toText`): the
instant is the difference of the two, hence it is that of the timestamp
to the millisecond where the offset lost nothing.
-/
import ContentProperties.Proofs.Numeric.Digits
import ContentProperties.Proofs.Time.Civil
import ContentProperties.Time.Iso8601
import Mathlib.Data.List.Basic

namespace ContentProperties.Time

open Numeric

-- ====================================================== padded numbers

section Padded

variable {width n : Nat}

theorem length_paddedDigits (hwidth : 0 < width) (h : n < 10 ^ width) :
    (paddedDigits width n).length = width := by
  have hle := length_natDigits_le hwidth h
  unfold paddedDigits
  rw [List.length_append, List.length_replicate]
  omega

theorem readNat?_paddedDigits (width n : Nat) :
    readNat? (paddedDigits width n) = some n := by
  have hne : paddedDigits width n ≠ [] := by
    simp [paddedDigits, natDigits_ne_nil]
  have hread : digitsAfter? 0 (paddedDigits width n) = some n := by
    unfold paddedDigits
    rw [digitsAfter?_zeros, digitsAfter?_natDigits, Nat.zero_mul,
      Nat.zero_add]
  cases hcs : paddedDigits width n with
  | nil => exact absurd hcs hne
  | cons c rest =>
      rw [hcs] at hread
      exact hread

theorem isDigit_of_mem_paddedDigits {c : Char}
    (hc : c ∈ paddedDigits width n) : isDigit c = true := by
  rcases List.mem_append.1 hc with hzero | hdigit
  · rw [List.eq_of_mem_replicate hzero]
    decide
  · exact isDigit_of_mem_natDigits hdigit

/-- A number of fixed width begins with no sign. -/
theorem paddedDigits_eq_cons (width n : Nat) :
    ∃ c rest, paddedDigits width n = c :: rest ∧ c ≠ '-' ∧ c ≠ '+' := by
  cases hcs : paddedDigits width n with
  | nil =>
      have h := readNat?_paddedDigits width n
      rw [hcs] at h
      cases h
  | cons c rest =>
      have hmem : c ∈ paddedDigits width n := by
        rw [hcs]
        exact List.mem_cons_self
      have hdigit := isDigit_of_mem_paddedDigits hmem
      exact ⟨c, rest, rfl, ne_of_isDigit hdigit (by decide),
        ne_of_isDigit hdigit (by decide)⟩

/-- A number below a hundred is two characters. -/
theorem paddedDigits_two {n : Nat} (h : n < 100) :
    ∃ a b, paddedDigits 2 n = [a, b] :=
  List.length_eq_two.1 (length_paddedDigits (by decide) h)

/-- A number of fixed width is read, whatever comes behind it. -/
theorem takeDigits?_paddedDigits (hwidth : 0 < width)
    (h : n < 10 ^ width) (rest : List Char) :
    takeDigits? width (paddedDigits width n ++ rest) = some (n, rest) := by
  have hlength := length_paddedDigits hwidth h
  unfold takeDigits?
  rw [List.take_left' hlength, List.drop_left' hlength]
  simp [hlength, readNat?_paddedDigits]

end Padded

/-- A mark and a number of fixed width behind it are read, and the reading
goes on with the number. -/
theorem bind_takeDigits? {β : Type} {width n : Nat} (hwidth : 0 < width)
    (h : n < 10 ^ width) (mark : Char) (rest : List Char)
    (next : Nat × List Char → Option β) :
    (takeChar? mark (mark :: (paddedDigits width n ++ rest)) >>=
        fun cs => takeDigits? width cs >>= next) = next (n, rest) := by
  have hmark : takeChar? mark (mark :: (paddedDigits width n ++ rest)) =
      some (paddedDigits width n ++ rest) := by
    simp [takeChar?]
  rw [hmark, Option.bind_eq_bind, Option.bind_some,
    takeDigits?_paddedDigits hwidth h rest, Option.bind_eq_bind,
    Option.bind_some]

-- =========================================================== the clock

/-- A year of four digits is read with its sign. -/
theorem takeYear?_yearChars {year : Int} (hfirst : -9999 ≤ year)
    (hlast : year ≤ 9999) (rest : List Char) :
    takeYear? (yearChars year ++ rest) = some (year, rest) := by
  have hread : takeDigits? 4 (paddedDigits 4 year.natAbs ++ rest) =
      some (year.natAbs, rest) :=
    takeDigits?_paddedDigits (by decide) (by omega) rest
  unfold yearChars
  by_cases hneg : year < 0
  · rw [if_pos hneg, List.cons_append]
    simp only [takeYear?, hread, Option.map_some]
    congr 2
    omega
  · rw [if_neg hneg]
    obtain ⟨c, digits, hcs, hminus, hplus⟩ :=
      paddedDigits_eq_cons 4 year.natAbs
    rw [hcs, List.cons_append] at hread ⊢
    unfold takeYear?
    split
    · next h => exact absurd (List.cons.inj h).1 hminus
    · next h => exact absurd (List.cons.inj h).1 hplus
    · rw [hread, Option.map_some]
      have hpos : (year.natAbs : Int) = year :=
        Int.natAbs_of_nonneg (by omega)
      dsimp only
      rw [hpos]

/-- A date and a time of day are read, however the year is spelled. -/
theorem readLocal?_parts {date : CivilDate} {hour minute sec millis : Nat}
    {yearText : List Char}
    (hyear : ∀ rest, takeYear? (yearText ++ rest) = some (date.year, rest))
    (hvalid : date.isValid = true)
    (hdate : date.month < 100 ∧ date.day < 100) (hhour : hour < 24)
    (hminute : minute < 60) (hsec : sec < 60) (hmillis : millis < 1000) :
    readLocal? (yearText ++ '-' :: paddedDigits 2 date.month ++
        '-' :: paddedDigits 2 date.day ++ 'T' :: paddedDigits 2 hour ++
        ':' :: paddedDigits 2 minute ++ ':' :: paddedDigits 2 sec ++
        '.' :: paddedDigits 3 millis) =
      some ((date.toDay - epochDay) * dayLength +
        ((hour * 3600 + minute * 60 + sec : Nat) * second +
          millis * millisecond)) := by
  have htwo : 0 < 2 := by decide
  -- the last number is not followed by anything
  rw [← List.append_nil (paddedDigits 3 millis)]
  simp only [List.append_assoc, List.cons_append]
  unfold readLocal?
  rw [hyear, Option.bind_eq_bind, Option.bind_some]
  dsimp only
  rw [bind_takeDigits? htwo hdate.1]
  dsimp only
  rw [bind_takeDigits? htwo hdate.2]
  dsimp only
  rw [bind_takeDigits? htwo (by omega)]
  dsimp only
  rw [bind_takeDigits? htwo (by omega)]
  dsimp only
  rw [bind_takeDigits? htwo (by omega)]
  dsimp only
  rw [bind_takeDigits? (by decide) hmillis]
  simp [hvalid, hhour, hminute, hsec]

/-- What the clock shows is read to the millisecond. -/
theorem readLocal?_localChars {x : Int} (hfirst : firstNano ≤ x)
    (hend : x < endNano) :
    readLocal? (localChars x) = some (x / millisecond * millisecond) := by
  have hday : daysBeforeYear (-9999) ≤ x / dayLength + epochDay ∧
      x / dayLength + epochDay < daysBeforeYear 10000 := by
    unfold firstNano at hfirst
    unfold endNano at hend
    rw [show dayLength = 86400000000000 from rfl] at *
    omega
  unfold localChars
  dsimp only
  -- milliseconds of the day
  obtain ⟨millis, hmillis⟩ : ∃ millis : Nat,
      x % dayLength / millisecond = millis :=
    Int.eq_ofNat_of_zero_le (by unfold dayLength second millisecond; omega)
  have hbound : millis < 86400000 := by
    unfold dayLength second millisecond at hmillis
    omega
  obtain ⟨hlow, hhigh⟩ := yearOfDay_mem hday.1 hday.2
  rw [hmillis, Int.toNat_natCast,
    readLocal?_parts (takeYear?_yearChars hlow hhigh)
      (CivilDate.isValid_ofDay _) (CivilDate.ofDay_lt _) (by omega)
      (by omega) (by omega) (by omega), CivilDate.toDay_ofDay]
  have hsplit : millis / 1000 / 3600 * 3600 + millis / 1000 / 60 % 60 * 60 +
      millis / 1000 % 60 = millis / 1000 := by omega
  rw [hsplit]
  congr 1
  unfold dayLength second millisecond at *
  omega

-- ========================================================== the offset

theorem Offset.eq_of_seconds {a b : Offset} (h : a.seconds = b.seconds) :
    a = b := by
  cases a
  cases b
  cases h
  rfl

/-- The offset with the seconds cut off that its text does not show. -/
def Offset.toMinute (o : Offset) : Offset where
  seconds :=
    if o.seconds < 0 then -(o.seconds.natAbs / 60 * 60 : Nat)
    else (o.seconds.natAbs / 60 * 60 : Nat)
  natAbs_lt := by
    have h := o.natAbs_lt
    split <;> omega

/-- Nothing is cut off where there are no seconds. -/
theorem Offset.toMinute_eq_self_iff (o : Offset) :
    o.toMinute = o ↔ (60 : Int) ∣ o.seconds := by
  have hseconds : o.toMinute = o ↔ o.toMinute.seconds = o.seconds :=
    ⟨congrArg Offset.seconds, eq_of_seconds⟩
  rw [hseconds]
  unfold toMinute
  dsimp only
  split <;> omega

/-- Hours and minutes make an offset within the limits of either. It has
the sign of the first of them that is not zero. -/
theorem Offset.ofParts?_signed {own : Int} (hown : own = 1 ∨ own = -1)
    {other : Int} (hother : other = 1 ∨ other = -1) (hours minutes : Nat) :
    ofParts? (own * hours) (other * minutes) 0 =
      if hours ≤ 25 ∧ minutes ≤ 59 then
        ofSeconds? ((if hours = 0 then other else own) *
          (hours * 3600 + minutes * 60 : Nat))
      else none := by
  have hsize : ∀ {sign : Int}, sign = 1 ∨ sign = -1 →
      ∀ n : Nat, (sign * n).natAbs = n := by
    rintro sign (rfl | rfl) n <;> omega
  have hsign : ∀ {sign : Int}, sign = 1 ∨ sign = -1 →
      ∀ n : Nat, n ≠ 0 → sign * n ≠ 0 ∧ (sign * n).sign = sign := by
    rintro sign (rfl | rfl) n hn
    · exact ⟨by omega, Int.sign_eq_one_of_pos (by omega)⟩
    · exact ⟨by omega, Int.sign_eq_neg_one_of_neg (by omega)⟩
  unfold ofParts?
  rw [hsize hown, hsize hother, Int.natAbs_zero]
  by_cases hlimits : hours ≤ 25 ∧ minutes ≤ 59
  · rw [if_pos ⟨hlimits.1, hlimits.2, by decide⟩, if_pos hlimits]
    by_cases hh : hours = 0
    · subst hh
      by_cases hm : minutes = 0
      · subst hm
        simp
      · obtain ⟨hne, hval⟩ := hsign hother minutes hm
        rw [if_neg (by simp), if_pos hne, hval]
        simp
    · obtain ⟨hne, hval⟩ := hsign hown hours hh
      rw [if_pos hne, hval, if_neg hh]
      simp
  · rw [if_neg fun h => hlimits ⟨h.1, h.2.1⟩, if_neg hlimits]

theorem readInt?_paddedDigits (width n : Nat) :
    readInt? (paddedDigits width n) = some (n : Int) := by
  have hread := readNat?_paddedDigits width n
  obtain ⟨c, rest, hcs, hminus, hplus⟩ := paddedDigits_eq_cons width n
  rw [hcs] at hread ⊢
  unfold readInt?
  split
  · next h => exact absurd (List.cons.inj h).1 hminus
  · next h => exact absurd (List.cons.inj h).1 hplus
  · rw [hread]
    rfl

theorem Offset.ofSeconds?_seconds (o : Offset) :
    ofSeconds? o.seconds = some o := by
  unfold ofSeconds?
  rw [dif_pos o.natAbs_lt]

/-- A sign, hours and minutes are read as one offset. -/
theorem readOffset?_parts {mark : Char} {sign : Int}
    (hmark : mark = '+' ∧ sign = 1 ∨ mark = '-' ∧ sign = -1)
    {hours minutes : Nat} (hhours : hours ≤ 25) (hminutes : minutes ≤ 59)
    {h₁ h₂ m₁ m₂ : Char} (hh : paddedDigits 2 hours = [h₁, h₂])
    (hm : paddedDigits 2 minutes = [m₁, m₂]) :
    readOffset? [mark, h₁, h₂, ':', m₁, m₂] =
      Offset.ofSeconds? (sign * (hours * 3600 + minutes * 60 : Nat)) := by
  have hread : readOffset? [mark, h₁, h₂, ':', m₁, m₂] =
      (readInt? [h₁, h₂] >>= fun h => readInt? [m₁, m₂] >>= fun m =>
        Offset.ofParts? (sign * h) (sign * m) 0) := by
    rcases hmark with ⟨rfl, rfl⟩ | ⟨rfl, rfl⟩ <;> rfl
  have hsign : sign = 1 ∨ sign = -1 := by
    rcases hmark with ⟨-, h⟩ | ⟨-, h⟩
    · exact .inl h
    · exact .inr h
  rw [hread, ← hh, ← hm, readInt?_paddedDigits, readInt?_paddedDigits]
  show Offset.ofParts? (sign * hours) (sign * minutes) 0 = _
  rw [Offset.ofParts?_signed hsign hsign, if_pos ⟨hhours, hminutes⟩,
    ite_self]

/-- The text of an offset other than zero has six characters, of which the
last is a digit, and is read to the minute. -/
theorem offsetChars_of_ne_zero {o : Offset} (hzero : o.seconds ≠ 0) :
    ∃ front last, offsetChars o = front ++ [last] ∧ front.length = 5 ∧
      last ≠ 'Z' ∧ readOffset? (offsetChars o) = some o.toMinute := by
  have hsize := o.natAbs_lt
  have hhours : o.seconds.natAbs / 3600 ≤ 25 := by omega
  have hminutes : o.seconds.natAbs / 60 % 60 ≤ 59 := by omega
  obtain ⟨h₁, h₂, hh⟩ := paddedDigits_two (Nat.lt_of_le_of_lt hhours
    (by decide))
  obtain ⟨m₁, m₂, hm⟩ := paddedDigits_two (Nat.lt_of_le_of_lt hminutes
    (by decide))
  have hlast : m₂ ∈ paddedDigits 2 (o.seconds.natAbs / 60 % 60) := by
    simp [hm]
  -- the parts that are shown are the minutes of the offset
  have hshown : o.seconds.natAbs / 3600 * 3600 +
      o.seconds.natAbs / 60 % 60 * 60 = o.seconds.natAbs / 60 * 60 := by
    omega
  have hread : ∀ mark sign,
      mark = '+' ∧ sign = 1 ∨ mark = '-' ∧ sign = -1 →
      sign * (o.seconds.natAbs / 60 * 60 : Nat) = o.toMinute.seconds →
      readOffset? [mark, h₁, h₂, ':', m₁, m₂] = some o.toMinute := by
    intro mark sign hmark hseconds
    rw [readOffset?_parts hmark hhours hminutes hh hm, hshown,
      hseconds, Offset.ofSeconds?_seconds]
  unfold offsetChars
  dsimp only
  rw [if_neg hzero, hh, hm]
  refine ⟨[_, h₁, h₂, ':', m₁], m₂, rfl, rfl,
    ne_of_isDigit (isDigit_of_mem_paddedDigits hlast) (by decide), ?_⟩
  by_cases hneg : o.seconds < 0
  · rw [if_pos hneg]
    apply hread '-' (-1) (.inr ⟨rfl, rfl⟩)
    unfold Offset.toMinute
    dsimp only
    rw [if_pos hneg, Int.neg_one_mul]
  · rw [if_neg hneg]
    apply hread '+' 1 (.inl ⟨rfl, rfl⟩)
    unfold Offset.toMinute
    dsimp only
    rw [if_neg hneg, Int.one_mul]

-- ======================================================== the round trip

/-- A text that ends in an offset is a clock's part and that offset, to
the minute. -/
theorem readTimestamp?_append (front : List Char) (o : Offset) :
    readTimestamp? (String.ofList (front ++ offsetChars o)) =
      (readLocal? front).bind fun shown =>
        Timestamp.of? (shown - o.toMinute.seconds * second) o.toMinute := by
  unfold readTimestamp?
  rw [String.toList_ofList]
  dsimp only
  by_cases hzero : o.seconds = 0
  · have hchars : offsetChars o = ['Z'] := by simp [offsetChars, hzero]
    have hutc : o.toMinute = Offset.utc := by
      rw [(Offset.toMinute_eq_self_iff o).2 (by omega)]
      exact Offset.eq_of_seconds hzero
    rw [hchars, hutc]
    simp
  · obtain ⟨body, last, hchars, hlength, hlast, hread⟩ :=
      offsetChars_of_ne_zero hzero
    have hend : (front ++ offsetChars o).getLast? ≠ some 'Z' := by
      rw [hchars, ← List.append_assoc, List.getLast?_concat]
      exact fun h => hlast (Option.some.inj h)
    have hsplit : (front ++ offsetChars o).length - 6 = front.length := by
      rw [hchars]
      simp only [List.length_append, List.length_singleton]
      omega
    rw [if_neg hend, hsplit, List.take_left, List.drop_left, hread]
    simp

/-- The text of a timestamp is read as what its clock shows to the
millisecond, at its offset to the minute. -/
theorem readTimestamp?_toText (t : Timestamp) :
    ∃ read, readTimestamp? t.toText = some read ∧
      read.offset = t.offset.toMinute ∧
      read.localNanos = t.localNanos / millisecond * millisecond := by
  obtain ⟨hfirst, hend⟩ := t.inCalendar
  have hlocal : readLocal? (localChars t.localNanos) =
      some (t.localNanos / millisecond * millisecond) :=
    readLocal?_localChars hfirst hend
  have hnanos : t.localNanos / millisecond * millisecond -
      t.offset.toMinute.seconds * second +
      t.offset.toMinute.seconds * second =
        t.localNanos / millisecond * millisecond := by omega
  -- the calendar begins and ends with a millisecond
  have hrange : firstNano ≤ t.localNanos / millisecond * millisecond ∧
      t.localNanos / millisecond * millisecond < endNano := by
    unfold Timestamp.localNanos
    unfold firstNano endNano dayLength second millisecond at *
    omega
  rw [← hnanos] at hrange
  refine ⟨⟨_, t.offset.toMinute, hrange⟩, ?_, rfl, hnanos⟩
  unfold Timestamp.toText
  rw [readTimestamp?_append, hlocal, Option.bind_some]
  exact dif_pos hrange

/-- The clock's part of a text does not show what is below a
millisecond. -/
theorem localChars_floor (x : Int) :
    localChars (x / millisecond * millisecond) = localChars x := by
  have hday : x / millisecond * millisecond / dayLength = x / dayLength := by
    unfold dayLength second millisecond
    omega
  have hmillis : x / millisecond * millisecond % dayLength / millisecond =
      x % dayLength / millisecond := by
    unfold dayLength second millisecond
    omega
  unfold localChars
  rw [hday, hmillis]

/-- The text of a timestamp is read back. It yields the offset, and the
instant to the millisecond, exactly if the offset has no seconds; and then
the milliseconds are those of the timestamp and the text is the same. -/
theorem toText_round_trip (t : Timestamp) :
    ∃ read, readTimestamp? t.toText = some read ∧
      ((read.offset = t.offset ∧
          read.nanos = t.nanos / millisecond * millisecond) ↔
        (60 : Int) ∣ t.offset.seconds) ∧
      ((60 : Int) ∣ t.offset.seconds →
        read.millis = t.millis ∧ read.toText = t.toText) := by
  obtain ⟨read, hread, hoffset, hlocal⟩ := readTimestamp?_toText t
  have hsame : (60 : Int) ∣ t.offset.seconds →
      read.offset = t.offset ∧
        read.nanos = t.nanos / millisecond * millisecond := by
    intro hminutes
    have hkept : read.offset = t.offset := by
      rw [hoffset, Offset.toMinute_eq_self_iff]
      exact hminutes
    refine ⟨hkept, ?_⟩
    -- whole seconds between the clocks leave the milliseconds alone
    unfold Timestamp.localNanos at hlocal
    rw [hkept] at hlocal
    unfold second millisecond at *
    omega
  refine ⟨read, hread, ⟨?_, hsame⟩, ?_⟩
  · rintro ⟨hkept, -⟩
    rw [hoffset, Offset.toMinute_eq_self_iff] at hkept
    exact hkept
  · intro hminutes
    obtain ⟨hkept, hnanos⟩ := hsame hminutes
    constructor
    · unfold Timestamp.millis
      rw [hnanos]
      exact Int.mul_ediv_cancel _ (by decide)
    · unfold Timestamp.toText
      rw [hlocal, localChars_floor, hkept]

end ContentProperties.Time
