/-
Coercion across the storage normalization. A writer's map converts the
value it was given; a later reader converts what the repository made of
it, an integer as a long, a character as a string, every timestamp as a
calendar. The two agree on every target.

# Method

Two facts meet. A value converts to its own kind as itself, so the
shortcut for a value that is an instance already can be dropped, and
both sides go through the converter (`convertScalar_eq_convertPlain`).
And the converter cannot tell a value from its stored form: it looks at
a number only through its 64-bit integer and its text, at a character
only through its text, and at a timestamp only through its instant and
its text (`alike_of_stored`). Single precision is the one kind for which
the second fails: its text is not that of the double it is stored as.
-/
import ContentProperties.Proofs.Conversion.Attempts
import ContentProperties.Repository.Memory

namespace ContentProperties

open Time

-- ======================================== values and their coercions

/-- The scalars that are stored without a change of what they stand for. -/
def Value.isExactScalar : Value → Bool
  | .byte _ | .short _ | .int _ | .long _ | .double _ | .decimal _ | .bool _
  | .char _ | .string _ | .date _ | .calendar _ | .zoned _ => true
  | .float _ | .binary _ | .object _ | .array _ => false

/-- The targets for which the value counts and not where it is kept. -/
def ValueType.isCoercion : ValueType → Bool
  | .unknown | .serializable | .property | .array _ => false
  | _ => true

-- ======================================================== converters

namespace Converter

/-- Two sources that every conversion takes to the same result. -/
structure Alike (a b : Converter) : Prop where
  text : a.toText = b.toText
  byte : a.toByte = b.toByte
  short : a.toShort = b.toShort
  int : a.toInt = b.toInt
  long : a.toLong = b.toLong
  float : a.toFloat = b.toFloat
  double : a.toDouble = b.toDouble
  decimal : a.toDecimal = b.toDecimal
  bool : a.toBool = b.toBool
  calendar : a.toCalendar = b.toCalendar

variable {a b : Converter}

theorem Alike.refl (a : Converter) : a.Alike a :=
  ⟨rfl, rfl, rfl, rfl, rfl, rfl, rfl, rfl, rfl, rfl⟩

theorem Alike.char (h : a.Alike b) : a.toChar = b.toChar := by
  unfold toChar
  rw [h.text]

theorem Alike.zoned (h : a.Alike b) : a.toZoned = b.toZoned := h.calendar

theorem Alike.date (h : a.Alike b) : a.toDate = b.toDate := by
  unfold toDate
  rw [h.calendar]

/-- A value and its stored form are converted alike. -/
theorem alike_of_stored {v : Value} {s : StoredValue}
    (hv : v.isExactScalar = true) (hs : StoredValue.ofPlain? v = some s) :
    (of v).Alike (of s.toValue) := by
  cases v with
  | byte v | short v | int v =>
    cases hs
    refine ⟨?_, rfl, rfl, rfl, rfl, rfl, rfl, rfl, rfl, rfl⟩
    -- Only the text is written from the narrow integer itself.
    simp [toText, of, StoredValue.toValue, Number.toText]
  | date i =>
    cases hs
    exact ⟨rfl, rfl, rfl, rfl, rfl, rfl, rfl, rfl, rfl, rfl⟩
  | zoned t =>
    cases hs
    exact ⟨rfl, rfl, rfl, rfl, rfl, rfl, rfl, rfl, rfl, rfl⟩
  | float _ | binary _ | object _ | array _ => cases hv
  | _ => cases hs; exact .refl _

-- ------------------------------------------ values of their own kind

theorem toChar_of_char (c : Char) :
    (of (.char c)).toChar = .ok c := by
  simp [toChar, of, toText, Value.toText, parsed]

theorem toDate_of_date (i : Instant) : (of (.date i)).toDate = .ok (.ok i) := by
  simp [toDate, of, toCalendar, Instant.toTimestamp, Timestamp.toInstant?,
    i.inCalendar]

theorem toBool_of_bool (b : Bool) : (of (.bool b)).toBool = .ok b := by
  cases b <;> rfl

end Converter

-- ============================================================= entries

namespace Entry

variable {σ : Type} {session session' : Session σ}
  {provider provider' : Provider} {e e' : Entry σ} {v v' : Value}
  {target : ValueType}

/-- A value converts to its own kind as itself. -/
theorem convertPlain_of_instance (hv : v.isExactScalar = true)
    (ht : target.isCoercion = true) (h : target.isInstance v = true) :
    convertPlain session e v target = pure (.value v) := by
  -- An exact scalar is an instance of its own kind only.
  have hof : target = ValueType.of v := by
    cases v <;> cases target <;> simp_all [Value.isExactScalar,
      ValueType.isCoercion, ValueType.isInstance, ValueType.of]
  subst hof
  cases v with
  | byte v | short v | int v =>
    simp [convertPlain, ValueType.of, Converter.of, Converter.toByte,
      Converter.toShort, Converter.toInt, Converter.numberOrText,
      Number.toInt, Number.toLong, Attempt.ofConversion]
  | bool b =>
    simp [convertPlain, ValueType.of, Converter.toBool_of_bool,
      Attempt.ofConversion]
  | char c =>
    simp [convertPlain, ValueType.of, Converter.toChar_of_char,
      Attempt.ofConversion]
  | date i =>
    simp [convertPlain, ValueType.of, Converter.toDate_of_date,
      Attempt.ofDate, Attempt.ofConversion]
  | float _ | binary _ | object _ | array _ => cases hv
  | _ => rfl

/-- A scalar is converted by the converter, an instance of the target
included. -/
theorem convertScalar_eq_convertPlain (hv : v.isExactScalar = true)
    (ht : target.isCoercion = true) (place : Option Nat) :
    convertScalar session provider e place v target =
      convertPlain session e v target := by
  unfold convertScalar
  by_cases h : target.isInstance v = true
  · rw [if_pos h, convertPlain_of_instance hv ht h]
  · rw [if_neg h]
    cases v with
    | binary _ => cases hv
    | _ => rfl

/-- Sources that are converted alike, and stored alike, reach the same
results; the entries around them only count where the property itself is
asked for. -/
theorem convertPlain_congr (ht : target.isCoercion = true)
    (h : (Converter.of v).Alike (Converter.of v'))
    (hstored : session.store? v = session'.store? v') :
    convertPlain session e v target = convertPlain session' e' v' target := by
  cases target with
  | unknown | serializable | property | array _ => cases ht
  | _ =>
    simp only [convertPlain, h.text, h.byte, h.short, h.int, h.long, h.float,
      h.double, h.decimal, h.bool, h.char, h.date, h.calendar, h.zoned,
      hstored]

-- ==================================================== the two entries

/-- Every exact scalar has a stored form, which no session is asked
for. -/
theorem store?_of_isExactScalar (hv : v.isExactScalar = true) :
    ∃ s, (∀ session : Session σ, session.store? v = pure (some s)) ∧
      StoredValue.ofPlain? v = some s ∧ s.toValue.isExactScalar = true ∧
      StoredValue.ofPlain? s.toValue = some s := by
  cases v with
  | float _ | binary _ | object _ | array _ => cases hv
  | _ => exact ⟨_, fun _ => rfl, rfl, rfl, rfl⟩

/-- The entry of an exact scalar about to be written. -/
theorem ofValue_of_isExactScalar (hv : v.isExactScalar = true)
    (w : World σ) : ofValue session v w = (.ok ⟨.pending v, false⟩, w) := by
  cases v with
  | float _ | binary _ | object _ | array _ => cases hv
  | _ => rfl

/-- The entry of a single-valued property, whatever type it declares, has
the value that its stored form is read as. -/
theorem ofProperty_of_single (name : String) (type : PropertyType)
    (s : StoredValue) (w : World σ) :
    ∃ read : Entry σ,
      ofProperty (Memory.StoredProperty.single name type s).toProperty w =
        (.ok read, w) ∧
      read.isArray = false ∧ ∀ w, read.value w = (.ok s.toValue, w) := by
  let p : Property σ := (Memory.StoredProperty.single name type s).toProperty
  have hp : ∀ w, p.value w = (.ok s.toValue, w) := fun _ => rfl
  obtain ⟨read, hrun, hsingle, hvalue, -⟩ := exists_ofProperty hp
  exact ⟨read, hrun w, hsingle, hvalue⟩

-- ===================================================== the equivalence

/-- What is about to be written and what a reader of the property gets
convert to the same: to the same result, to nothing, or both are broken
off. Writer and reader may belong to different sessions and helpers, and
the property may declare any type. -/
theorem convert_written_eq_convert_read (session session' : Session σ)
    (provider provider' : Provider) (name : String) (type : PropertyType)
    {v : Value} (hv : v.isExactScalar = true) {target : ValueType}
    (ht : target.isCoercion = true) (w : World σ) :
    ∃ s written read,
      session.store? v w = (.ok (some s), w) ∧
      ofValue session v w = (.ok written, w) ∧
      ofProperty (Memory.StoredProperty.single name type s).toProperty w =
        (.ok read, w) ∧
      written.convert session provider target =
        read.convert session' provider' target := by
  obtain ⟨s, hstore, hs, hvs, hss⟩ := store?_of_isExactScalar (σ := σ) hv
  obtain ⟨read, hread, hsingle, hvalue⟩ :=
    ofProperty_of_single (σ := σ) name type s w
  refine ⟨s, ⟨.pending v, false⟩, read, ?_, ofValue_of_isExactScalar hv w,
    hread, ?_⟩
  · rw [hstore]
    rfl
  have hstored : session.store? v = session'.store? s.toValue := by
    obtain ⟨s', hstore', hs', -, -⟩ := store?_of_isExactScalar (σ := σ) hvs
    rw [hstore, hstore', Option.some.inj (hss.symm.trans hs')]
  have harray : target.isArray = false := by
    cases target with
    | array _ => cases ht
    | _ => rfl
  funext w
  rw [run_convert_single (v := v) rfl rfl harray,
    run_convert_single hsingle (hvalue w) harray,
    convertScalar_eq_convertPlain hv ht, convertScalar_eq_convertPlain hvs ht,
    convertPlain_congr ht (Converter.alike_of_stored hv hs) hstored]

/-- The last instant that a clock one hour west of UTC can show has no
date in UTC: as a date, both what is written and what is read break
off. -/
theorem convert_of_last_instant :
    ∃ t : Timestamp, ∃ s written read,
      (Memory.session 0).store? (.zoned t) ⟨.empty, .empty⟩ =
        (.ok (some s), ⟨.empty, .empty⟩) ∧
      ofValue (Memory.session 0) (.zoned t) ⟨.empty, .empty⟩ =
        (.ok written, ⟨.empty, .empty⟩) ∧
      ofProperty (Memory.StoredProperty.single "at" .date s).toProperty
        ⟨.empty, .empty⟩ = (.ok read, ⟨.empty, .empty⟩) ∧
      written.convert (Memory.session 0) ⟨.default, none⟩ .date =
        read.convert (Memory.session 1) ⟨.default, none⟩ .date ∧
      written.convert (Memory.session 0) ⟨.default, none⟩ .date
        ⟨.empty, .empty⟩ =
        (.error .calendarOverflow, ⟨.empty, .empty⟩) := by
  let t : Timestamp := ⟨endNano, ⟨-3600, by decide⟩, by decide⟩
  obtain ⟨s, written, read, hstore, hwritten, hread, hsame⟩ :=
    convert_written_eq_convert_read (Memory.session 0) (Memory.session 1)
      ⟨.default, none⟩ ⟨.default, none⟩ "at" .date
      (show (Value.zoned t).isExactScalar = true from rfl)
      (show ValueType.date.isCoercion = true from rfl) ⟨.empty, .empty⟩
  refine ⟨t, s, written, read, hstore, hwritten, hread, hsame, ?_⟩
  obtain rfl : (⟨.pending (.zoned t), false⟩ : Entry Memory.Repository) =
      written := Except.ok.inj (congrArg Prod.fst hwritten)
  rfl

end Entry

end ContentProperties
