/-
What breaks a conversion off. Conversions yield something or nothing, and
nothing is all that comes of a text that cannot be read, of a number that
does not fit and of a type that cannot be reached. There is one way out of
that: a timestamp is valid where its clock stands, and need not have a
date in UTC. So the conversion to a date is the one that is broken off,
and exactly for the timestamps whose date in UTC leaves the calendar.

# Method

The conversions of a scalar are one table by target (`Converter.to?`), so
that what is said of them is said of all. All but one are outcomes by
themselves. The one to a date goes by way of the timestamp, and what it
needs is that a value has a timestamp without a date in UTC only if it is
one or writes one (`toDate_eq_error_iff`). For entries, `ends_attempt`
tells the value that a conversion was broken off for.

Reading an offset is the one place where narrow integers are multiplied.
There it is a matter of the form of the text that no product leaves them:
two characters are a number of at most 99 (`readOffsetIn8Bits_eq`).
-/
import ContentProperties.Proofs.Conversion.Coercion
import ContentProperties.Proofs.Conversion.Fitting
import ContentProperties.Proofs.Conversion.Narrowing
import ContentProperties.Proofs.Time.Grammar

namespace ContentProperties

namespace Time

-- ======================================================= dates in UTC

/-- The date on which the instant falls in UTC, in the calendar or not. -/
def Timestamp.utcDate (t : Timestamp) : CivilDate :=
  .ofDay (t.nanos / dayLength + epochDay)

/-- The date in UTC is before the first year of the calendar or after the
last. -/
def Timestamp.LeavesCalendar (t : Timestamp) : Prop :=
  t.utcDate.year < -9999 ∨ 9999 < t.utcDate.year

theorem year_ofDay (n : Int) : (CivilDate.ofDay n).year = yearOfDay n := by
  obtain ⟨passed, length, dayOfMonth, hdate, -⟩ := CivilDate.ofDay_spec n
  rw [hdate]

/-- The days of the calendar are those of its years. -/
theorem yearOfDay_mem_iff (n : Int) :
    -9999 ≤ yearOfDay n ∧ yearOfDay n ≤ 9999 ↔
      daysBeforeYear (-9999) ≤ n ∧ n < daysBeforeYear 10000 := by
  constructor
  · rintro ⟨hfirst, hlast⟩
    obtain ⟨hstart, hnext⟩ := yearOfDay_bounds n
    generalize yearOfDay n = year at hfirst hlast hstart hnext
    unfold daysBeforeYear at hstart hnext ⊢
    dsimp only at hstart hnext ⊢
    omega
  · rintro ⟨hfirst, hend⟩
    exact yearOfDay_mem hfirst hend

/-- A timestamp has no counterpart in UTC exactly if its date there leaves
the calendar. -/
theorem Timestamp.toInstant?_eq_none_iff (t : Timestamp) :
    t.toInstant? = none ↔ t.LeavesCalendar := by
  have hday : 0 < dayLength := by decide
  have hfirst : firstNano ≤ t.nanos ↔
      daysBeforeYear (-9999) ≤ t.nanos / dayLength + epochDay := by
    unfold firstNano
    rw [← Int.le_ediv_iff_mul_le hday]
    omega
  have hend : t.nanos < endNano ↔
      t.nanos / dayLength + epochDay < daysBeforeYear 10000 := by
    unfold endNano
    rw [← Int.ediv_lt_iff_lt_mul hday]
    omega
  have hyears := yearOfDay_mem_iff (t.nanos / dayLength + epochDay)
  have hnone : t.toInstant? = none ↔
      ¬(firstNano ≤ t.nanos ∧ t.nanos < endNano) := by
    unfold toInstant?
    split <;> simp_all
  rw [hnone, hfirst, hend, ← hyears]
  unfold LeavesCalendar utcDate
  rw [year_ofDay]
  omega

theorem Instant.toInstant?_toTimestamp (i : Instant) :
    i.toTimestamp.toInstant? = some i := by
  simp [toTimestamp, Timestamp.toInstant?, i.inCalendar]

-- ================================================ offsets in 8 bits

open Numeric

/-- The product of integers of 8 bits, or else the number that does not
fit. -/
def timesIn8Bits (a b : Int) : Except Int Int :=
  if IntegerType.byte.Holds (a * b) then .ok (a * b) else .error (a * b)

/-- The integer that two characters write, if it has 8 bits. -/
def pairIn8Bits? (a b : Char) : Option Int :=
  readIntIn? Int8.minValue.toInt Int8.maxValue.toInt (String.ofList [a, b])

/-- The offset of hours and minutes with a sign in front, if they were
read. -/
def offsetIn8Bits (sign : Int) (hours? minutes? : Option Int) :
    Except Int (Option Offset) :=
  match hours?, minutes? with
  | some hours, some minutes => do
      let hours ← timesIn8Bits sign hours
      let minutes ← timesIn8Bits sign minutes
      pure (Offset.ofParts? hours minutes 0)
  | _, _ => pure none

/-- The offset, read by a reader that has integers of 8 bits only. A part
that does not fit is refused, and a product that does not is an error. -/
def readOffsetIn8Bits : List Char → Except Int (Option Offset)
  | [sign, h₁, h₂, ':', m₁, m₂] =>
      if sign = '+' then
        offsetIn8Bits 1 (pairIn8Bits? h₁ h₂) (pairIn8Bits? m₁ m₂)
      else if sign = '-' then
        offsetIn8Bits (-1) (pairIn8Bits? h₁ h₂) (pairIn8Bits? m₁ m₂)
      else pure none
  | _ => pure none

/-- Two characters write no large number. -/
theorem natAbs_le_of_readInt? {a b : Char} {i : Int}
    (h : readInt? [a, b] = some i) : i.natAbs ≤ 99 := by
  obtain ⟨p, -, rfl⟩ := readInt?_eq_some_iff.1 h
  have hsize : p.size ≤ 99 := by
    cases p with
    | plain n =>
      show (n : Nat) ≤ 99
      omega
    | signed _ n =>
      show (n : Nat) ≤ 99
      omega
  rcases p.isUnit with hp | hp <;> rw [hp] <;> omega

theorem pairIn8Bits?_eq (a b : Char) : pairIn8Bits? a b = readInt? [a, b] := by
  unfold pairIn8Bits? readIntIn?
  rw [String.toList_ofList]
  cases hread : readInt? [a, b] with
  | none => rfl
  | some i =>
    have hsmall := natAbs_le_of_readInt? hread
    have hlow : Int8.minValue.toInt = -128 := rfl
    have hhigh : Int8.maxValue.toInt = 127 := rfl
    dsimp only
    rw [if_pos (by omega)]

theorem timesIn8Bits_of_le {s i : Int} (hs : s = 1 ∨ s = -1)
    (hi : i.natAbs ≤ 99) : timesIn8Bits s i = .ok (s * i) := by
  have hholds : IntegerType.byte.Holds (s * i) := by
    show (-128 : Int) ≤ s * i ∧ s * i < 128
    rcases hs with rfl | rfl <;> omega
  unfold timesIn8Bits
  rw [if_pos hholds]

theorem offsetIn8Bits_eq {s : Int} (hs : s = 1 ∨ s = -1)
    (h₁ h₂ m₁ m₂ : Char) :
    offsetIn8Bits s (pairIn8Bits? h₁ h₂) (pairIn8Bits? m₁ m₂) =
      .ok ((readInt? [h₁, h₂]).bind fun hours =>
        (readInt? [m₁, m₂]).bind fun minutes =>
          Offset.ofParts? (s * hours) (s * minutes) 0) := by
  rw [pairIn8Bits?_eq, pairIn8Bits?_eq]
  cases hhours : readInt? [h₁, h₂] with
  | none => rfl
  | some hours =>
    cases hminutes : readInt? [m₁, m₂] with
    | none => rfl
    | some minutes =>
      unfold offsetIn8Bits
      dsimp only
      rw [timesIn8Bits_of_le hs (natAbs_le_of_readInt? hhours),
        timesIn8Bits_of_le hs (natAbs_le_of_readInt? hminutes)]
      rfl

/-- No product leaves the 8 bits, and the offset is the one that is
read. -/
theorem readOffsetIn8Bits_eq (cs : List Char) :
    readOffsetIn8Bits cs = .ok (readOffset? cs) := by
  unfold readOffsetIn8Bits
  split
  · next sign h₁ h₂ m₁ m₂ =>
    unfold readOffset?
    by_cases hplus : sign = '+'
    · simp only [hplus, if_true]
      exact offsetIn8Bits_eq (.inl rfl) h₁ h₂ m₁ m₂
    · by_cases hminus : sign = '-'
      · subst hminus
        exact offsetIn8Bits_eq (.inr rfl) h₁ h₂ m₁ m₂
      · simp only [hplus, hminus, if_false]
        rfl
  · next hother =>
    rw [readOffset?]
    · rfl
    · exact hother

end Time

open Time

-- ======================================================== the accessors

/-- The conversions of a source, by target. Only the one to a date can be
broken off. -/
def Converter.to? (c : Converter) :
    ValueType → Option (Except Abort (Conversion Value))
  | .string => some (.ok (.ok (.string c.toText)))
  | .byte => some (.ok (.byte <$> c.toByte))
  | .short => some (.ok (.short <$> c.toShort))
  | .int => some (.ok (.int <$> c.toInt))
  | .long => some (.ok (.long <$> c.toLong))
  | .float => some (.ok (.float <$> c.toFloat))
  | .double => some (.ok (.double <$> c.toDouble))
  | .decimal => some (.ok (.decimal <$> c.toDecimal))
  | .bool => some (.ok (.bool <$> c.toBool))
  | .char => some (.ok (.char <$> c.toChar))
  | .calendar => some (.ok (.calendar <$> c.toCalendar))
  | .zoned => some (.ok (.zoned <$> c.toZoned))
  | .date => some ((Functor.map Value.date) <$> c.toDate)
  | _ => none

/-- The value is the timestamp, or is converted as a text and writes
it. -/
def Value.Tells (v : Value) (t : Timestamp) : Prop :=
  v = .calendar t ∨ v = .zoned t ∨
    ∃ s, Converter.of v = .text s ∧ readTimestamp? s = some t

/-- The value tells of a timestamp whose date in UTC leaves the
calendar. -/
def Value.LeavesCalendar (v : Value) : Prop :=
  ∃ t, v.Tells t ∧ t.LeavesCalendar

namespace Converter

variable {v : Value} {t : Timestamp} {target : ValueType} {cause : Abort}
variable {outcome : Except Abort (Conversion Value)}

theorem toCalendar_of_tells (h : v.Tells t) : (of v).toCalendar = .ok t := by
  rcases h with rfl | rfl | ⟨s, hs, hread⟩
  · rfl
  · rfl
  · simp only [hs, toCalendar, parsed, hread]

/-- A timestamp without a counterpart in UTC is not made from a number, and
not from an instant. -/
theorem tells_of_toCalendar (h : (of v).toCalendar = .ok t)
    (hnone : t.toInstant? = none) : v.Tells t := by
  have hinstant : ∀ i : Instant, i.toTimestamp ≠ t := by
    rintro i rfl
    rw [i.toInstant?_toTimestamp] at hnone
    cases hnone
  have hmillis : ∀ m, (ofMillis m).map Instant.toTimestamp ≠ .ok t := by
    intro m hm
    cases hi : ofMillis m with
    | error _ =>
      rw [hi] at hm
      cases hm
    | ok i =>
      rw [hi] at hm
      exact hinstant i (Except.ok.inj hm)
  cases v with
  | calendar u =>
    cases h
    exact .inl rfl
  | zoned u =>
    cases h
    exact .inr (.inl rfl)
  | date i => exact absurd (Except.ok.inj h) (hinstant i)
  | bool b => exact absurd h (hmillis _)
  | byte _ | short _ | int _ | long _ | float _ | double _ | decimal _ =>
    exact absurd h (hmillis _)
  | string _ | char _ | binary _ | object _ | array _ =>
    refine .inr (.inr ⟨_, rfl, ?_⟩)
    unfold toCalendar of parsed at h
    dsimp only at h
    split at h
    · next hread =>
      cases h
      exact hread
    · cases h

/-- The conversion to a date is broken off exactly for the timestamps whose
date in UTC leaves the calendar. -/
theorem toDate_eq_error_iff :
    (of v).toDate = .error cause ↔
      cause = .calendarOverflow ∧ v.LeavesCalendar := by
  unfold Value.LeavesCalendar
  simp only [← Timestamp.toInstant?_eq_none_iff]
  constructor
  · intro h
    unfold toDate at h
    split at h
    · cases h
    · next t ht =>
      split at h
      · cases h
      · next hnone =>
        cases h
        exact ⟨rfl, t, tells_of_toCalendar ht hnone, hnone⟩
  · rintro ⟨rfl, t, htells, hnone⟩
    simp only [toDate, toCalendar_of_tells htells, hnone]

/-- Of all conversions of a value the one to a date alone is broken
off. -/
theorem to?_eq_error_iff (h : (of v).to? target = some outcome) :
    outcome = .error cause ↔
      cause = .calendarOverflow ∧ target = .date ∧ v.LeavesCalendar := by
  cases target with
  | date =>
    cases h
    have hmap : Functor.map Value.date <$> (of v).toDate = .error cause ↔
        (of v).toDate = .error cause := by
      cases (of v).toDate <;> simp
    rw [hmap, toDate_eq_error_iff]
    simp only [true_and]
  | unknown | binary | objectStream | serializable | object _ | stored
  | property | array _ => cases h
  | _ =>
    cases h
    constructor
    · intro h
      cases h
    · rintro ⟨-, h, -⟩
      cases h

end Converter

-- ========================================================= entries

namespace Entry

variable {σ : Type}

/-- A value without the type already is converted as its source is. -/
theorem convertPlain_eq_to? {v : Value} {target : ValueType}
    {outcome : Except Abort (Conversion Value)}
    (h : (Converter.of v).to? target = some outcome) (session : Session σ)
    (e : Entry σ) :
    e.convertPlain session v target =
      Converted.value <$> Attempt.ofDate outcome := by
  cases target with
  | unknown | binary | objectStream | serializable | object _ | stored
  | property | array _ => cases h
  | date =>
    cases h
    unfold convertPlain
    dsimp only
    cases (Converter.of v).toDate with
    | error cause => rfl
    | ok conversion => cases conversion <;> rfl
  | _ =>
    cases h
    rfl

/-- Conversions are broken off only as dates. Of all conversions of a value
the one to a date alone can be, and it is exactly if the value tells of a
timestamp whose date in UTC leaves the calendar; on the way no product of
narrow integers leaves its bits. Hence an entry is broken off only where a
date or dates are asked for, and for such a value; or else where its text
is, for lack of a buffer for a binary. -/
theorem broken_off_only_as_date :
    (∀ (v : Value) (target : ValueType)
        (outcome : Except Abort (Conversion Value)),
      (Converter.of v).to? target = some outcome →
      (∀ (session : Session σ) (e : Entry σ),
        e.convertPlain session v target =
          Converted.value <$> Attempt.ofDate outcome) ∧
      ∀ cause, outcome = .error cause ↔
        cause = .calendarOverflow ∧ target = .date ∧ v.LeavesCalendar) ∧
    (∀ cs, readOffsetIn8Bits cs = .ok (readOffset? cs)) ∧
    ∀ (session : Session σ) (provider : Provider) (e : Entry σ)
        (target : ValueType) (w : World σ) (cause : Abort) (w' : World σ),
      e.convert session provider target w = (.error cause, w') →
      (cause = .calendarOverflow ∧
        (target = .date ∨ target = .array .date) ∧
        ∃ v u, e.Offers v ∧ (u = v ∨ ∃ b, v = .binary b) ∧
          u.LeavesCalendar) ∨
      (cause = .bufferOverflow ∧
        (target = .string ∨ target = .array .string) ∧
        ∃ b, e.Offers (.binary b) ∧
          (provider.options.streamBufferSize ≤ bufferLimit &&
            b.source.fitsBuffer) = false) := by
  refine ⟨?_, readOffsetIn8Bits_eq, ?_⟩
  · intro v target outcome h
    exact ⟨convertPlain_eq_to? h, fun _ => Converter.to?_eq_error_iff h⟩
  · intro session provider e target w cause w' h
    obtain ⟨v, item, hoffers, htarget, hcause⟩ := mayBreakOff_of_convert h
    cases cause with
    | calendarOverflow =>
      obtain ⟨rfl, u, hu, hdate⟩ := hcause
      obtain ⟨-, hleaves⟩ := Converter.toDate_eq_error_iff.1 hdate
      exact .inl ⟨rfl, htarget, v, u, hoffers, hu, hleaves⟩
    | bufferOverflow =>
      obtain ⟨rfl, b, rfl, hbuffer⟩ := hcause
      exact .inr ⟨rfl, htarget, b, hoffers, hbuffer⟩

/-- The last hour of the calendar, an hour west of UTC, is a timestamp and
breaks off as a date, also among dates. -/
theorem last_hour_breaks_off :
    ∃ (t : Timestamp) (e : Entry Memory.Repository),
      t.utcDate.year = 10000 ∧
      (Converter.of (.string "9999-12-31T23:00:00.000-01:00")).toCalendar =
        .ok t ∧
      (Converter.of (.string "9999-12-31T23:00:00.000-01:00")).to? .date =
        some (.error .calendarOverflow) ∧
      e.convert (Memory.session 0) ⟨.default, none⟩ (.array .date)
        ⟨.empty, .empty⟩ = (.error .calendarOverflow, ⟨.empty, .empty⟩) ∧
      ∃ v u, e.Offers v ∧ (u = v ∨ ∃ b, v = .binary b) ∧
        u.LeavesCalendar := by
  let t : Timestamp := ⟨endNano, ⟨-3600, by decide⟩, by decide⟩
  let text := "9999-12-31T23:00:00.000-01:00"
  let e : Entry Memory.Repository := ⟨.pending (.array [.string text]), true⟩
  have hread : readTimestamp? text = some t := by decide +kernel
  have hyear : t.utcDate.year = 10000 := by decide +kernel
  have htells : (Value.string text).Tells t := .inr (.inr ⟨text, rfl, hread⟩)
  obtain ⟨hscalars, -, hentries⟩ :=
    @broken_off_only_as_date Memory.Repository
  obtain ⟨hplain, herror⟩ := hscalars (.string text) .date _ rfl
  have hdate := (herror .calendarOverflow).2
    ⟨rfl, rfl, t, htells, .inr (by rw [hyear]; decide)⟩
  have hscalar : (convertScalar (Memory.session 0) ⟨.default, none⟩ e (some 0)
      (.string text) .date).run ⟨.empty, .empty⟩ =
        (.error .calendarOverflow, ⟨.empty, .empty⟩) := by
    rw [convertScalar_eq_convertPlain rfl rfl, hplain, hdate]
    rfl
  have hrun : e.convert (Memory.session 0) ⟨.default, none⟩ (.array .date)
      ⟨.empty, .empty⟩ = (.error .calendarOverflow, ⟨.empty, .empty⟩) := by
    rw [run_convert_array rfl rfl]
    apply Attempt.run_map_of_abort
    apply Attempt.run_bind_of_abort
    rw [Attempt.run_result?, hscalar]
  refine ⟨t, e, hyear, Converter.toCalendar_of_tells htells,
    congrArg some hdate, hrun, ?_⟩
  rcases hentries _ _ _ _ _ _ _ hrun with ⟨-, -, h⟩ | ⟨h, -⟩
  · exact h
  · cases h

end Entry

end ContentProperties
