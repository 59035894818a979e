/-
Which texts are read as timestamps, and as what. The grammar of the
texts is a pair of types: what is said of a date and a time of day
(`ClockText`), and what is said of an offset (`ZoneText`). Numbers of a
fixed width are part of the types, so a text of either shape is no more
than the marks and digits that it is built from. A text is read exactly
if it spells a date and a time that there are and an offset within the
limits, and it is read as what it spells
(`readTimestamp?_eq_some_iff`).

# The shape that is meant

The canonical shape has two digits for the hours of an offset and two
for its minutes. The reader takes each of them for an integer of two
characters, so it accepts a sign and a digit as well. Those are the only
texts beyond the canonical ones, and there the sign of the offset may
not be the one in front of it: the first part other than zero decides
with its own (`ZoneText.turn`).

# Method

Each reader is shown to accept exactly the spellings of its part: digits
of a fixed width, which are those of the number padded with zeros
(`takeDigits?_eq_some_iff`), then the year, the clock, the parts of the
offset, the offset. The text as a whole is cut where the offset begins,
and the last character tells where that is.
-/
import ContentProperties.Proofs.Time.Iso8601
import Mathlib.Data.List.Induction

namespace ContentProperties.Time

open Numeric

-- ==================================================== numbers of a width

/-- A padded number gets its next digit behind the others. -/
theorem paddedDigits_succ {width n d : Nat} (hwidth : 0 < width)
    (hd : d < 10) :
    paddedDigits (width + 1) (10 * n + d) =
      paddedDigits width n ++ [digitChar d] := by
  by_cases hzero : n = 0
  · subst hzero
    -- the zero that stands for the number is one of the padding
    have hdigit : natDigits (10 * 0 + d) = [digitChar d] := by
      rw [natDigits, if_pos (by omega), Nat.mul_zero, Nat.zero_add]
    have hnone : natDigits 0 = ['0'] := by
      rw [natDigits, if_pos (by decide)]
      rfl
    obtain ⟨zeros, rfl⟩ : ∃ zeros, width = zeros + 1 :=
      ⟨width - 1, by omega⟩
    unfold paddedDigits
    dsimp only
    rw [hdigit, hnone, List.length_singleton, List.length_singleton,
      Nat.add_sub_cancel, Nat.add_sub_cancel, List.replicate_succ']
  · have hdigits : natDigits (10 * n + d) =
        natDigits n ++ [digitChar d] := by
      rw [natDigits, if_neg (by omega)]
      rw [show (10 * n + d) / 10 = n by omega,
        show (10 * n + d) % 10 = d by omega]
    unfold paddedDigits
    dsimp only
    rw [hdigits, List.length_append, List.length_singleton,
      Nat.add_sub_add_right, List.append_assoc]

/-- Digits are those of the number they write, padded to their length. -/
theorem of_readNat? {cs : List Char} {n : Nat}
    (h : readNat? cs = some n) :
    n < 10 ^ cs.length ∧ cs = paddedDigits cs.length n := by
  obtain ⟨hne, hread⟩ : cs ≠ [] ∧ digitsAfter? 0 cs = some n := by
    cases cs with
    | nil => cases h
    | cons c rest => exact ⟨List.cons_ne_nil c rest, h⟩
  clear h
  -- the reader goes on where it stopped, so the last digit is taken off
  induction cs using List.reverseRecOn generalizing n with
  | nil => exact absurd rfl hne
  | append_singleton front c ih =>
    rw [digitsAfter?_append] at hread
    obtain ⟨m, hfront, hlast⟩ := Option.bind_eq_some_iff.1 hread
    cases hdigit : digit? c with
    | none =>
        simp only [digitsAfter?, hdigit] at hlast
        cases hlast
    | some d =>
        obtain ⟨hd, rfl⟩ := of_digit?_eq_some hdigit
        simp only [digitsAfter?, hdigit] at hlast
        cases hlast
        rw [List.length_append, List.length_singleton]
        by_cases hnil : front = []
        · subst hnil
          cases hfront
          refine ⟨by simpa using hd, ?_⟩
          unfold paddedDigits
          rw [natDigits, if_pos (by omega), Nat.mul_zero, Nat.zero_add]
          rfl
        · obtain ⟨hbound, hdigits⟩ := ih hnil hfront
          have hpos : 0 < front.length := List.length_pos_iff.2 hnil
          refine ⟨?_, ?_⟩
          · rw [Nat.pow_succ]
            omega
          · rw [paddedDigits_succ hpos hd, ← hdigits]

/-- A number of a fixed width is read exactly if it is there. -/
theorem takeDigits?_eq_some_iff {width n : Nat} (hwidth : 0 < width)
    {cs rest : List Char} :
    takeDigits? width cs = some (n, rest) ↔
      n < 10 ^ width ∧ cs = paddedDigits width n ++ rest := by
  refine ⟨fun h => ?_, ?_⟩
  · unfold takeDigits? at h
    dsimp only at h
    split at h
    · next hlength =>
      obtain ⟨m, hread, heq⟩ := Option.map_eq_some_iff.1 h
      cases heq
      obtain ⟨hbound, hdigits⟩ := of_readNat? hread
      rw [hlength] at hbound hdigits
      exact ⟨hbound, by rw [← hdigits, List.take_append_drop]⟩
    · cases h
  · rintro ⟨hbound, rfl⟩
    exact takeDigits?_paddedDigits hwidth hbound rest

theorem takeChar?_eq_some_iff {c : Char} {cs rest : List Char} :
    takeChar? c cs = some rest ↔ cs = c :: rest := by
  cases cs with
  | nil => simp [takeChar?]
  | cons d tail => simp [takeChar?]

-- ============================================================= the clock

/-- A sign in front of a number. -/
inductive Sign where
  | plus
  | minus
  deriving DecidableEq

namespace Sign

def char : Sign → Char
  | plus => '+'
  | minus => '-'

/-- What the sign makes of the number. -/
def factor : Sign → Int
  | plus => 1
  | minus => -1

end Sign

/-- What a text says of a date and a time of day. -/
structure ClockText where
  /-- The sign of the year, if there is one. -/
  yearSign : Option Sign
  year : Fin 10000
  month : Fin 100
  day : Fin 100
  hour : Fin 100
  minute : Fin 100
  sec : Fin 100
  millis : Fin 1000

namespace ClockText

variable (c : ClockText)

/-- The year with its sign, in four digits. -/
def yearText : List Char :=
  (c.yearSign.map Sign.char).toList ++ paddedDigits 4 c.year

/-- The text: numbers of fixed width, with marks between them. -/
def chars : List Char :=
  c.yearText ++ '-' :: paddedDigits 2 c.month ++
    '-' :: paddedDigits 2 c.day ++ 'T' :: paddedDigits 2 c.hour ++
    ':' :: paddedDigits 2 c.minute ++ ':' :: paddedDigits 2 c.sec ++
    '.' :: paddedDigits 3 c.millis

/-- The date that the text says. -/
def date : CivilDate :=
  ⟨(c.yearSign.map Sign.factor).getD 1 * c.year, c.month, c.day⟩

/-- There are such a date and such a time of day. -/
def IsValid : Prop :=
  c.date.isValid = true ∧ (c.hour : Nat) < 24 ∧ (c.minute : Nat) < 60 ∧
    (c.sec : Nat) < 60

instance : Decidable c.IsValid := inferInstanceAs (Decidable (_ ∧ _))

/-- What a clock with that text shows. -/
def shown : Int :=
  (c.date.toDay - epochDay) * dayLength +
    ((c.hour * 3600 + c.minute * 60 + c.sec : Nat) * second +
      c.millis * millisecond)

end ClockText

/-- A year is read exactly if it has four digits, with a sign or
without. -/
theorem takeYear?_eq_some_iff {cs rest : List Char} {year : Int} :
    takeYear? cs = some (year, rest) ↔
      ∃ (sign : Option Sign) (n : Fin 10000),
        year = (sign.map Sign.factor).getD 1 * n ∧
        cs = (sign.map Sign.char).toList ++ paddedDigits 4 n ++ rest := by
  have hfour : 0 < 4 := by decide
  constructor
  · intro h
    unfold takeYear? at h
    split at h
    all_goals
      obtain ⟨⟨n, rest'⟩, hdigits, heq⟩ := Option.map_eq_some_iff.1 h
      obtain ⟨hbound, rfl⟩ := (takeDigits?_eq_some_iff hfour).1 hdigits
      cases heq
    · exact ⟨some .minus, ⟨n, hbound⟩, by simp [Sign.factor], rfl⟩
    · exact ⟨some .plus, ⟨n, hbound⟩, by simp [Sign.factor], rfl⟩
    · exact ⟨none, ⟨n, hbound⟩, by simp, rfl⟩
  · rintro ⟨sign, n, rfl, rfl⟩
    have hread : takeDigits? 4 (paddedDigits 4 n ++ rest) =
        some (↑n, rest) :=
      (takeDigits?_eq_some_iff hfour).2 ⟨n.isLt, rfl⟩
    cases sign with
    | some sign =>
        cases sign <;> simp [takeYear?, hread, Sign.char, Sign.factor]
    | none =>
        obtain ⟨c, digits, hcs, hminus, hplus⟩ := paddedDigits_eq_cons 4 n
        rw [hcs, List.cons_append] at hread
        rw [hcs]
        unfold takeYear?
        simp only [Option.map_none, Option.toList_none, List.nil_append,
          List.cons_append]
        split
        · next h => exact absurd (List.cons.inj h).1 hminus
        · next h => exact absurd (List.cons.inj h).1 hplus
        · simp [hread]

/-- A mark was read, and a number of fixed width behind it. -/
theorem of_bind_takeDigits? {β : Type} {width : Nat} (hwidth : 0 < width)
    {mark : Char} {cs : List Char} {next : Nat × List Char → Option β}
    {b : β}
    (h : (takeChar? mark cs >>= fun cs => takeDigits? width cs >>= next) =
      some b) :
    ∃ n rest, n < 10 ^ width ∧
      cs = mark :: (paddedDigits width n ++ rest) ∧
      next (n, rest) = some b := by
  rw [Option.bind_eq_bind, Option.bind_eq_some_iff] at h
  obtain ⟨digits, hmark, h⟩ := h
  rw [Option.bind_eq_bind, Option.bind_eq_some_iff] at h
  obtain ⟨⟨n, rest⟩, hdigits, hnext⟩ := h
  obtain ⟨hbound, rfl⟩ := (takeDigits?_eq_some_iff hwidth).1 hdigits
  exact ⟨n, rest, hbound, takeChar?_eq_some_iff.1 hmark, hnext⟩

/-- The clock's part of a text is read exactly if it spells a date and a
time that there are. -/
theorem readLocal?_eq_some_iff {cs : List Char} {shown : Int} :
    readLocal? cs = some shown ↔
      ∃ c : ClockText, c.IsValid ∧ cs = c.chars ∧ shown = c.shown := by
  have htwo : 0 < 2 := by decide
  constructor
  · intro h
    unfold readLocal? at h
    rw [Option.bind_eq_bind, Option.bind_eq_some_iff] at h
    obtain ⟨⟨year, cs₁⟩, hyear, h₁⟩ := h
    obtain ⟨sign, n, rfl, rfl⟩ := takeYear?_eq_some_iff.1 hyear
    dsimp only at h₁
    obtain ⟨month, cs₂, hmonth, rfl, h₂⟩ := of_bind_takeDigits? htwo h₁
    dsimp only at h₂
    obtain ⟨day, cs₃, hday, rfl, h₃⟩ := of_bind_takeDigits? htwo h₂
    dsimp only at h₃
    obtain ⟨hour, cs₄, hhour, rfl, h₄⟩ := of_bind_takeDigits? htwo h₃
    dsimp only at h₄
    obtain ⟨minute, cs₅, hminute, rfl, h₅⟩ := of_bind_takeDigits? htwo h₄
    dsimp only at h₅
    obtain ⟨sec, cs₆, hsec, rfl, h₆⟩ := of_bind_takeDigits? htwo h₅
    dsimp only at h₆
    obtain ⟨millis, cs₇, hmillis, rfl, h₇⟩ :=
      of_bind_takeDigits? (by decide) h₆
    dsimp only at h₇
    split at h₇
    · next hvalid =>
      simp only [Bool.and_eq_true, decide_eq_true_eq,
        List.isEmpty_iff] at hvalid
      obtain ⟨⟨⟨⟨rfl, hdate⟩, hhours⟩, hminutes⟩, hsecs⟩ := hvalid
      refine ⟨⟨sign, n, ⟨month, hmonth⟩, ⟨day, hday⟩, ⟨hour, hhour⟩,
        ⟨minute, hminute⟩, ⟨sec, hsec⟩, ⟨millis, hmillis⟩⟩,
        ⟨hdate, hhours, hminutes, hsecs⟩, ?_, (Option.some.inj h₇).symm⟩
      simp [ClockText.chars, ClockText.yearText]
    · cases h₇
  · rintro ⟨c, ⟨hdate, hhour, hminute, hsec⟩, rfl, rfl⟩
    have hyear : ∀ rest,
        takeYear? (c.yearText ++ rest) = some (c.date.year, rest) :=
      fun _ => takeYear?_eq_some_iff.2 ⟨c.yearSign, c.year, rfl, rfl⟩
    have hread := readLocal?_parts hyear hdate
      ⟨c.month.isLt, c.day.isLt⟩ hhour hminute hsec c.millis.isLt
    exact hread

-- ============================================================ the offset

/-- What a text says of the hours or the minutes of an offset: a number of
two digits, or one of a single digit with a sign of its own. -/
inductive PartText where
  | plain (n : Fin 100)
  | signed (sign : Sign) (n : Fin 10)

namespace PartText

def chars : PartText → List Char
  | plain n => paddedDigits 2 n
  | signed sign n => sign.char :: paddedDigits 1 n

def size : PartText → Nat
  | plain n => n
  | signed _ n => n

/-- What the part's own sign makes of it. -/
def factor : PartText → Int
  | plain _ => 1
  | signed sign _ => sign.factor

/-- The part is two digits. -/
def IsPlain : PartText → Prop
  | plain _ => True
  | signed .. => False

/-- A part is two characters. The last is a digit, and the first exactly
if the part has no sign of its own. -/
theorem exists_chars (p : PartText) :
    ∃ a b, p.chars = [a, b] ∧ isDigit b = true ∧
      (isDigit a = true ↔ p.IsPlain) := by
  cases p with
  | plain n =>
      obtain ⟨a, b, hab⟩ := paddedDigits_two n.isLt
      have hdigit : ∀ c ∈ [a, b], isDigit c = true := by
        rw [← hab]
        exact fun _ => isDigit_of_mem_paddedDigits
      exact ⟨a, b, hab, hdigit b (by simp),
        iff_of_true (hdigit a (by simp)) trivial⟩
  | signed sign n =>
      obtain ⟨b, hb⟩ := List.length_eq_one_iff.1
        (length_paddedDigits (by decide) n.isLt)
      have hdigit : b ∈ paddedDigits 1 n := by simp [hb]
      refine ⟨sign.char, b, by rw [chars, hb],
        isDigit_of_mem_paddedDigits hdigit, iff_of_false ?_ id⟩
      cases sign <;> decide

end PartText

/-- Two characters are read as an integer exactly if they are a part of an
offset. -/
theorem readInt?_eq_some_iff {a b : Char} {i : Int} :
    readInt? [a, b] = some i ↔
      ∃ p : PartText, [a, b] = p.chars ∧ i = p.factor * p.size := by
  constructor
  · intro h
    unfold readInt? at h
    split at h
    all_goals
      obtain ⟨_, hlift, rfl⟩ := Option.map_eq_some_iff.1 h
      obtain ⟨n, hread, hn⟩ := Option.bind_eq_some_iff.1 hlift
      cases hn
      obtain ⟨hbound, hdigits⟩ := of_readNat? hread
    · next heq =>
      cases heq
      exact ⟨.signed .minus ⟨n, hbound⟩, congrArg ('-' :: ·) hdigits,
        by simp [PartText.factor, PartText.size, Sign.factor]⟩
    · next heq =>
      cases heq
      exact ⟨.signed .plus ⟨n, hbound⟩, congrArg ('+' :: ·) hdigits,
        by simp [PartText.factor, PartText.size, Sign.factor]⟩
    · exact ⟨.plain ⟨n, hbound⟩, hdigits,
        by simp [PartText.factor, PartText.size]⟩
  · rintro ⟨p, hchars, rfl⟩
    rw [hchars]
    cases p with
    | plain n => simp [PartText.chars, PartText.factor, PartText.size,
        readInt?_paddedDigits]
    | signed sign n =>
        cases sign <;> simp [PartText.chars, PartText.factor, PartText.size,
          Sign.char, Sign.factor, readInt?, readNat?_paddedDigits]

/-- What a text says of an offset. -/
inductive ZoneText where
  | utc
  | apart (sign : Sign) (hours minutes : PartText)

namespace ZoneText

def chars : ZoneText → List Char
  | utc => ['Z']
  | apart sign hours minutes =>
      sign.char :: hours.chars ++ ':' :: minutes.chars

/-- The offset is within the limits of hours and minutes. -/
def IsValid : ZoneText → Prop
  | utc => True
  | apart _ hours minutes => hours.size ≤ 25 ∧ minutes.size ≤ 59

instance : (zone : ZoneText) → Decidable zone.IsValid
  | utc => inferInstanceAs (Decidable True)
  | apart .. => inferInstanceAs (Decidable (_ ∧ _))

/-- Hours and minutes are two digits each. -/
def IsPlain : ZoneText → Prop
  | utc => True
  | apart _ hours minutes => hours.IsPlain ∧ minutes.IsPlain

/-- The offset that is written: its sign times hours and minutes. -/
def written : ZoneText → Int
  | utc => 0
  | apart sign hours minutes =>
      sign.factor * (hours.size * 3600 + minutes.size * 60 : Nat)

/-- Where the offset that is read lies from the one that is written: on
the other side, if the first part other than zero has a minus of its
own. -/
def turn : ZoneText → Int
  | utc => 1
  | apart _ hours minutes =>
      if hours.size = 0 then minutes.factor else hours.factor

theorem turn_of_isPlain {zone : ZoneText} (h : zone.IsPlain) :
    zone.turn = 1 := by
  cases zone with
  | utc => rfl
  | apart sign hours minutes =>
      obtain ⟨hh, hm⟩ := h
      cases hours with
      | signed _ _ => exact hh.elim
      | plain _ =>
          cases minutes with
          | signed _ _ => exact hm.elim
          | plain _ => exact ite_self 1

end ZoneText

theorem Offset.ofSeconds?_eq_some_iff {seconds : Int} {o : Offset} :
    ofSeconds? seconds = some o ↔ o.seconds = seconds := by
  constructor
  · intro h
    unfold ofSeconds? at h
    split at h
    · cases h
      rfl
    · cases h
  · rintro rfl
    exact ofSeconds?_seconds o

theorem Sign.isUnit (sign : Sign) : sign.factor = 1 ∨ sign.factor = -1 := by
  cases sign
  · exact .inl rfl
  · exact .inr rfl

theorem PartText.isUnit (p : PartText) :
    p.factor = 1 ∨ p.factor = -1 := by
  cases p with
  | plain n => exact .inl rfl
  | signed sign n => exact sign.isUnit

/-- Two parts and a sign make the offset that they spell, if they are
within the limits. -/
theorem Offset.ofParts?_eq_some_iff (sign : Sign) (hours minutes : PartText)
    {o : Offset} :
    ofParts? (sign.factor * (hours.factor * hours.size))
        (sign.factor * (minutes.factor * minutes.size)) 0 = some o ↔
      (ZoneText.apart sign hours minutes).IsValid ∧
        o.seconds = (ZoneText.apart sign hours minutes).turn *
          (ZoneText.apart sign hours minutes).written := by
  have hspelled : (if hours.size = 0 then sign.factor * minutes.factor
      else sign.factor * hours.factor) *
        (hours.size * 3600 + minutes.size * 60 : Nat) =
      (ZoneText.apart sign hours minutes).turn *
        (ZoneText.apart sign hours minutes).written := by
    unfold ZoneText.turn ZoneText.written
    dsimp only
    split <;> ring
  have hunit : ∀ p : PartText,
      sign.factor * p.factor = 1 ∨ sign.factor * p.factor = -1 := by
    intro p
    rcases sign.isUnit with hs | hs <;> rcases p.isUnit with hp | hp <;>
      rw [hs, hp] <;> decide
  rw [← Int.mul_assoc, ← Int.mul_assoc,
    ofParts?_signed (hunit hours) (hunit minutes), hspelled]
  by_cases hlimits : hours.size ≤ 25 ∧ minutes.size ≤ 59
  · rw [if_pos hlimits, ofSeconds?_eq_some_iff]
    exact (and_iff_right hlimits).symm
  · rw [if_neg hlimits]
    exact iff_of_false (fun h => nomatch h) fun h => hlimits h.1

/-- Six characters are read as an offset exactly if they spell one within
the limits. -/
theorem readOffset?_eq_some_iff {cs : List Char} {o : Offset} :
    readOffset? cs = some o ↔
      ∃ sign hours minutes,
        (ZoneText.apart sign hours minutes).IsValid ∧
        cs = (ZoneText.apart sign hours minutes).chars ∧
        o.seconds = (ZoneText.apart sign hours minutes).turn *
          (ZoneText.apart sign hours minutes).written := by
  have hrun : ∀ (sign : Sign) h₁ h₂ m₁ m₂,
      readOffset? [sign.char, h₁, h₂, ':', m₁, m₂] =
        ((readInt? [h₁, h₂]).bind fun hours =>
          (readInt? [m₁, m₂]).bind fun minutes =>
            Offset.ofParts? (sign.factor * hours) (sign.factor * minutes)
              0) := by
    intro sign h₁ h₂ m₁ m₂
    cases sign <;> rfl
  constructor
  · intro h
    obtain ⟨sign, h₁, h₂, m₁, m₂, rfl⟩ : ∃ (sign : Sign) (h₁ h₂ m₁ m₂ : Char),
        cs = [sign.char, h₁, h₂, ':', m₁, m₂] := by
      unfold readOffset? at h
      split at h
      · next mark h₁ h₂ m₁ m₂ =>
        by_cases hplus : mark = '+'
        · exact ⟨.plus, h₁, h₂, m₁, m₂, by rw [hplus]; rfl⟩
        · by_cases hminus : mark = '-'
          · exact ⟨.minus, h₁, h₂, m₁, m₂, by rw [hminus]; rfl⟩
          · simp [hplus, hminus] at h
      · cases h
    rw [hrun] at h
    obtain ⟨i, hi, h⟩ := Option.bind_eq_some_iff.1 h
    obtain ⟨j, hj, h⟩ := Option.bind_eq_some_iff.1 h
    obtain ⟨hours, hhours, rfl⟩ := readInt?_eq_some_iff.1 hi
    obtain ⟨minutes, hminutes, rfl⟩ := readInt?_eq_some_iff.1 hj
    obtain ⟨hvalid, hseconds⟩ :=
      (Offset.ofParts?_eq_some_iff sign hours minutes).1 h
    refine ⟨sign, hours, minutes, hvalid, ?_, hseconds⟩
    rw [ZoneText.chars, ← hhours, ← hminutes]
    rfl
  · rintro ⟨sign, hours, minutes, hvalid, rfl, hseconds⟩
    obtain ⟨h₁, h₂, hhours, -⟩ := hours.exists_chars
    obtain ⟨m₁, m₂, hminutes, -⟩ := minutes.exists_chars
    rw [ZoneText.chars, hhours, hminutes]
    show readOffset? [sign.char, h₁, h₂, ':', m₁, m₂] = _
    rw [hrun, readInt?_eq_some_iff.2 ⟨hours, hhours.symm, rfl⟩,
      readInt?_eq_some_iff.2 ⟨minutes, hminutes.symm, rfl⟩]
    exact (Offset.ofParts?_eq_some_iff sign hours minutes).2
      ⟨hvalid, hseconds⟩

-- ============================================================== the text

/-- The text spells a date and a time that there are, and an offset within
the limits. -/
def Spells (text : String) (clock : ClockText) (zone : ZoneText) : Prop :=
  clock.IsValid ∧ zone.IsValid ∧ text.toList = clock.chars ++ zone.chars

/-- The text has the shape that is written, with two digits for the hours
of an offset and two for its minutes. -/
def IsCanonical (text : String) : Prop :=
  ∃ (clock : ClockText) (zone : ZoneText),
    zone.IsPlain ∧ text.toList = clock.chars ++ zone.chars

namespace ZoneText

theorem length_apart (sign : Sign) (hours minutes : PartText) :
    (apart sign hours minutes).chars.length = 6 := by
  obtain ⟨h₁, h₂, hhours, -⟩ := hours.exists_chars
  obtain ⟨m₁, m₂, hminutes, -⟩ := minutes.exists_chars
  rw [chars, hhours, hminutes]
  rfl

/-- The last character tells an offset from none. -/
theorem getLast?_append_apart (front : List Char) (sign : Sign)
    (hours minutes : PartText) :
    (front ++ (apart sign hours minutes).chars).getLast? ≠ some 'Z' := by
  obtain ⟨h₁, h₂, hhours, -⟩ := hours.exists_chars
  obtain ⟨m₁, m₂, hminutes, hdigit, -⟩ := minutes.exists_chars
  have hsplit : (apart sign hours minutes).chars =
      [sign.char, h₁, h₂, ':', m₁] ++ [m₂] := by
    rw [chars, hhours, hminutes]
    rfl
  rw [hsplit, ← List.append_assoc, List.getLast?_concat]
  exact fun h => ne_of_isDigit hdigit (by decide) (Option.some.inj h)

/-- The offset that is read is below 26 hours. -/
theorem natAbs_lt {zone : ZoneText} (h : zone.IsValid) :
    (zone.turn * zone.written).natAbs < 26 * 3600 := by
  cases zone with
  | utc => decide
  | apart sign hours minutes =>
      obtain ⟨hh, hm⟩ := h
      have hturn : (apart sign hours minutes).turn = 1 ∨
          (apart sign hours minutes).turn = -1 := by
        unfold turn
        dsimp only
        split
        · exact minutes.isUnit
        · exact hours.isUnit
      unfold written
      dsimp only
      rcases hturn with hturn | hturn <;>
        rcases sign.isUnit with hsign | hsign <;>
        rw [hturn, hsign] <;> omega

end ZoneText

/-- A timestamp is one at an offset exactly if it is what a clock there
shows. -/
theorem Timestamp.of?_eq_some_iff {shown : Int} {o : Offset}
    {t : Timestamp} :
    of? (shown - o.seconds * second) o = some t ↔
      t.localNanos = shown ∧ t.offset = o := by
  constructor
  · intro h
    unfold of? at h
    split at h
    · cases h
      exact ⟨Int.sub_add_cancel .., rfl⟩
    · cases h
  · rintro ⟨rfl, rfl⟩
    have hnanos : t.localNanos - t.offset.seconds * second = t.nanos :=
      Int.add_sub_cancel ..
    rw [hnanos]
    exact dif_pos t.inCalendar

/-- A text is read as a timestamp exactly if it spells what the clock of
the timestamp shows, and its offset. -/
theorem readTimestamp?_eq_some_iff {text : String} {t : Timestamp} :
    readTimestamp? text = some t ↔
      ∃ clock zone, Spells text clock zone ∧
        t.localNanos = clock.shown ∧
        t.offset.seconds = zone.turn * zone.written := by
  constructor
  · intro h
    unfold readTimestamp? at h
    dsimp only at h
    by_cases hlast : text.toList.getLast? = some 'Z'
    · obtain ⟨front, hfront⟩ := List.getLast?_eq_some_iff.1 hlast
      have hcut : (front ++ ['Z']).take ((front ++ ['Z']).length - 1) =
          front := by simp
      rw [if_pos hlast, hfront, hcut] at h
      obtain ⟨shown, hshown, h⟩ := Option.bind_eq_some_iff.1 h
      obtain ⟨clock, hclock, rfl, rfl⟩ := readLocal?_eq_some_iff.1 hshown
      obtain ⟨hlocal, hoffset⟩ := Timestamp.of?_eq_some_iff.1 h
      exact ⟨clock, .utc, ⟨hclock, trivial, hfront⟩, hlocal,
        by rw [hoffset]; rfl⟩
    · rw [if_neg hlast] at h
      obtain ⟨o, ho, h⟩ := Option.bind_eq_some_iff.1 h
      obtain ⟨shown, hshown, h⟩ := Option.bind_eq_some_iff.1 h
      obtain ⟨clock, hclock, hfront, rfl⟩ := readLocal?_eq_some_iff.1 hshown
      obtain ⟨sign, hours, minutes, hzone, hback, hseconds⟩ :=
        readOffset?_eq_some_iff.1 ho
      obtain ⟨hlocal, rfl⟩ := Timestamp.of?_eq_some_iff.1 h
      refine ⟨clock, .apart sign hours minutes, ⟨hclock, hzone, ?_⟩, hlocal,
        hseconds⟩
      rw [← hfront, ← hback, List.take_append_drop]
  · rintro ⟨clock, zone, ⟨hclock, hzone, hchars⟩, hlocal, hseconds⟩
    have hread : readLocal? clock.chars = some clock.shown :=
      readLocal?_eq_some_iff.2 ⟨clock, hclock, rfl, rfl⟩
    unfold readTimestamp?
    dsimp only
    rw [hchars]
    cases zone with
    | utc =>
        have hutc : t.offset = Offset.utc := Offset.eq_of_seconds hseconds
        have hof := Timestamp.of?_eq_some_iff.2 ⟨hlocal, hutc⟩
        simp [ZoneText.chars, hread, hof]
    | apart sign hours minutes =>
        have hcut : (clock.chars ++ (ZoneText.apart sign hours
            minutes).chars).length - 6 = clock.chars.length := by
          rw [List.length_append, ZoneText.length_apart, Nat.add_sub_cancel]
        have hoffset := readOffset?_eq_some_iff.2
          ⟨sign, hours, minutes, hzone, rfl, hseconds⟩
        have hof := Timestamp.of?_eq_some_iff.2
          ⟨hlocal, show t.offset = t.offset from rfl⟩
        have hlast := ZoneText.getLast?_append_apart clock.chars sign hours
          minutes
        rw [if_neg hlast, hcut, List.take_left, List.drop_left, hoffset,
          hread]
        exact hof

/-- A clock can show every date that a text can say. -/
theorem ClockText.shown_mem {clock : ClockText} (h : clock.IsValid) :
    firstNano ≤ clock.shown ∧ clock.shown < endNano := by
  obtain ⟨hdate, hhour, hminute, hsec⟩ := h
  obtain ⟨hstart, hend⟩ := CivilDate.toDay_bounds hdate
  have hyear : -9999 ≤ clock.date.year ∧ clock.date.year ≤ 9999 := by
    have hbound := clock.year.isLt
    show -9999 ≤ (clock.yearSign.map Sign.factor).getD 1 * clock.year ∧
      (clock.yearSign.map Sign.factor).getD 1 * clock.year ≤ 9999
    cases clock.yearSign with
    | none =>
        simp only [Option.map_none, Option.getD_none]
        omega
    | some sign =>
        simp only [Option.map_some, Option.getD_some]
        rcases sign.isUnit with hsign | hsign <;> rw [hsign] <;> omega
  -- the calendar begins and ends with a year
  have hdays : daysBeforeYear (-9999) ≤ clock.date.toDay ∧
      clock.date.toDay < daysBeforeYear 10000 := by
    generalize clock.date.year = year at hstart hend hyear
    unfold daysBeforeYear at hstart hend ⊢
    dsimp only at hstart hend ⊢
    omega
  have hmillis := clock.millis.isLt
  unfold shown firstNano endNano dayLength second millisecond
  omega

/-- Whatever is spelled is read, as what it spells. -/
theorem Spells.exists_read {text : String} {clock : ClockText}
    {zone : ZoneText} (h : Spells text clock zone) :
    ∃ t, readTimestamp? text = some t ∧ t.localNanos = clock.shown ∧
      t.offset.seconds = zone.turn * zone.written := by
  let o : Offset := ⟨zone.turn * zone.written, ZoneText.natAbs_lt h.2.1⟩
  have hlocal : clock.shown - o.seconds * second + o.seconds * second =
      clock.shown := Int.sub_add_cancel ..
  let t : Timestamp := ⟨clock.shown - o.seconds * second, o, by
    rw [hlocal]
    exact ClockText.shown_mem h.1⟩
  exact ⟨t, readTimestamp?_eq_some_iff.2 ⟨clock, zone, h, hlocal, rfl⟩,
    hlocal, rfl⟩

/-- A text has one offset, so its shape is canonical exactly if the parts
of that offset have no signs of their own. -/
theorem isCanonical_iff {text : String} {clock : ClockText}
    {zone : ZoneText} (h : text.toList = clock.chars ++ zone.chars) :
    IsCanonical text ↔ zone.IsPlain := by
  refine ⟨?_, fun hplain => ⟨clock, zone, hplain, h⟩⟩
  rintro ⟨clock', zone', hplain, h'⟩
  have hsame : clock.chars ++ zone.chars = clock'.chars ++ zone'.chars :=
    h.symm.trans h'
  cases zone with
  | utc => trivial
  | apart sign hours minutes =>
      cases zone' with
      | utc =>
          refine absurd ?_ (ZoneText.getLast?_append_apart clock.chars sign
            hours minutes)
          rw [hsame]
          simp [ZoneText.chars]
      | apart sign' hours' minutes' =>
          have hlength : (ZoneText.apart sign hours minutes).chars.length =
              (ZoneText.apart sign' hours' minutes').chars.length := by
            rw [ZoneText.length_apart, ZoneText.length_apart]
          obtain ⟨-, hchars⟩ := List.append_inj' hsame hlength
          obtain ⟨h₁, h₂, hhours, -, hh⟩ := hours.exists_chars
          obtain ⟨m₁, m₂, hminutes, -, hm⟩ := minutes.exists_chars
          obtain ⟨h₁', h₂', hhours', -, hh'⟩ := hours'.exists_chars
          obtain ⟨m₁', m₂', hminutes', -, hm'⟩ := minutes'.exists_chars
          rw [ZoneText.chars, ZoneText.chars, hhours, hminutes, hhours',
            hminutes'] at hchars
          simp only [List.cons_append, List.nil_append, List.cons.injEq,
            and_true, true_and] at hchars
          obtain ⟨-, rfl, -, rfl, -⟩ := hchars
          exact ⟨hh.1 (hh'.2 hplain.1), hm.1 (hm'.2 hplain.2)⟩

/-- Read are the texts that spell a date and a time that there are and an
offset within the limits, no others, and as what they spell. Such a text
has the canonical shape, and the offset is the sign times hours and
minutes, unless one of these has a sign of its own. -/
theorem reads_exactly_what_is_spelled (text : String) :
    ((readTimestamp? text).isSome ↔
      ∃ clock zone, Spells text clock zone) ∧
    ∀ t, readTimestamp? text = some t ↔
      ∃ clock zone, Spells text clock zone ∧
        t.localNanos = clock.shown ∧
        t.offset.seconds = zone.turn * zone.written ∧
        (IsCanonical text ↔ zone.IsPlain) ∧
        (zone.IsPlain → t.offset.seconds = zone.written) := by
  refine ⟨⟨fun h => ?_, ?_⟩, fun t => ⟨fun h => ?_, ?_⟩⟩
  · obtain ⟨t, ht⟩ := Option.isSome_iff_exists.1 h
    obtain ⟨clock, zone, hspells, -⟩ := readTimestamp?_eq_some_iff.1 ht
    exact ⟨clock, zone, hspells⟩
  · rintro ⟨clock, zone, hspells⟩
    obtain ⟨t, ht, -⟩ := hspells.exists_read
    rw [ht]
    rfl
  · obtain ⟨clock, zone, hspells, hlocal, hseconds⟩ :=
      readTimestamp?_eq_some_iff.1 h
    refine ⟨clock, zone, hspells, hlocal, hseconds,
      isCanonical_iff hspells.2.2, fun hplain => ?_⟩
    rw [hseconds, ZoneText.turn_of_isPlain hplain, Int.one_mul]
  · rintro ⟨clock, zone, hspells, hlocal, hseconds, -⟩
    exact readTimestamp?_eq_some_iff.2 ⟨clock, zone, hspells, hlocal, hseconds⟩

/-- An hour with a sign of its own is read: the text is not canonical, and
its offset is on the other side of UTC than the sign in front says. -/
theorem signed_hours_are_read :
    ∃ t, readTimestamp? "2021-01-02T03:04:05.006+-1:30" = some t ∧
      t.offset.seconds = -5400 ∧
      ¬IsCanonical "2021-01-02T03:04:05.006+-1:30" := by
  let clock : ClockText := ⟨none, 2021, 1, 2, 3, 4, 5, 6⟩
  let zone : ZoneText := .apart .plus (.signed .minus 1) (.plain 30)
  have hspells : Spells "2021-01-02T03:04:05.006+-1:30" clock zone :=
    ⟨by decide +kernel, by decide, by decide +kernel⟩
  have hoffset : zone.turn * zone.written = -5400 := by decide
  obtain ⟨t, ht, -, hseconds⟩ := hspells.exists_read
  exact ⟨t, ht, hseconds.trans hoffset,
    fun h => ((isCanonical_iff hspells.2.2).1 h).1⟩

end ContentProperties.Time
