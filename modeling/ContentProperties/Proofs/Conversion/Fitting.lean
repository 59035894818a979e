/-
What conversions end in. A conversion has many exits: the value as it is,
the length of a binary, its text, the object in it, a coerced scalar, the
items of an array one by one. Whatever leaves by any of them has the type
that was asked for (`Converted.Fits`), and a conversion is broken off for
two causes only, each of which tells the target and the value
(`Entry.MayBreakOff`).

# Method

`Attempt.Ends P Q` says of an attempt that what it yields satisfies `P`
and that the cause it is broken off for satisfies `Q`. It is closed under
sequencing, so it is read off each definition line by line, as `Keeps`
is, and no conversion is run.
-/
import ContentProperties.Proofs.Conversion.Attempts

namespace ContentProperties

variable {σ α β : Type}

-- ============================================================== fitting

/-- The result has the type: it is a value of that type, the one kind of
result that the type names, or an array of results that have its item
type. -/
inductive Converted.Fits : ValueType → Converted σ → Prop where
  | value {t : ValueType} {v : Value} (h : t.isInstance v = true) :
      Fits t (.value v)
  | stored (v : StoredValue) : Fits .stored (.stored v)
  | property (p : Property σ) : Fits .property (.property p)
  | stream (s : ObjectStream) : Fits .objectStream (.stream s)
  | array {t : ValueType} {cs : List (Converted σ)}
      (h : ∀ c ∈ cs, Fits t c) : Fits (.array t) (.array cs)

-- ============================================================= attempts

namespace Attempt

/-- An outcome that satisfies the one condition, if it is a result, and
the other, if it is the cause of breaking off. -/
def Allowed (P : α → Prop) (Q : Abort → Prop) :
    Except Abort (Option α) → Prop
  | .ok (some a) => P a
  | .ok none => True
  | .error cause => Q cause

/-- What the attempt yields satisfies the one condition, and the cause it
is broken off for, if it is, the other. -/
def Ends (P : α → Prop) (Q : Abort → Prop) (x : Attempt σ α) : Prop :=
  ∀ w, Allowed P Q (x.run w).1

variable {P : α → Prop} {P' : β → Prop} {Q Q' : Abort → Prop}
variable {x : Attempt σ α}

/-- A cause may be told less exactly. -/
theorem Ends.mono (h : x.Ends P Q) (hQ : ∀ cause, Q cause → Q' cause) :
    x.Ends P Q' := by
  intro w
  have hw := h w
  rcases hr : x.run w with ⟨cause | a?, t⟩ <;> rw [hr] at hw
  · exact hQ cause hw
  · cases a? <;> exact hw

theorem ends_pure {a : α} (h : P a) : (pure a : Attempt σ α).Ends P Q :=
  fun _ => h

theorem ends_nothing : (nothing : Attempt σ α).Ends P Q := fun _ => trivial

theorem ends_abort {cause : Abort} (h : Q cause) :
    (abort cause : Attempt σ α).Ends P Q := fun _ => h

/-- What the first attempt yields satisfies its condition when the second
begins, and either may be broken off for a cause of the same kind. -/
theorem ends_bind {f : α → Attempt σ β} (hx : x.Ends P Q)
    (hf : ∀ a, P a → (f a).Ends P' Q) : (x >>= f).Ends P' Q := by
  intro w
  have hw := hx w
  rcases hr : x.run w with ⟨cause | a?, t⟩ <;> rw [hr] at hw
  · rw [run_bind_of_abort hr]
    exact hw
  · cases a? with
    | none =>
      rw [run_bind_of_none hr]
      trivial
    | some a =>
      rw [run_bind_of_some hr]
      exact hf a hw t

theorem ends_map {f : α → β} (hx : x.Ends P Q) (hf : ∀ a, P a → P' (f a)) :
    (f <$> x).Ends P' Q := by
  rw [show f <$> x = x >>= fun a => pure (f a) from
    (bind_pure_comp f x).symm]
  exact ends_bind hx fun a ha => ends_pure (hf a ha)

/-- A call fails without breaking anything off. -/
theorem ends_ofAct (act : Act σ α) :
    (ofAct act).Ends (fun a => ∃ w w', act w = (.ok a, w')) Q := by
  intro w
  rw [run_ofAct]
  rcases hr : act w with ⟨_ | _, w'⟩
  · trivial
  · exact ⟨w, w', hr⟩

/-- A conversion of a scalar that fails yields nothing, and breaks nothing
off. -/
theorem ends_ofConversion (c : Conversion α) :
    (ofConversion c : Attempt σ α).Ends (fun _ => True) Q := by
  cases c with
  | error _ => exact ends_nothing
  | ok a => exact ends_pure trivial

/-- A stream that does not open yields nothing. -/
theorem ends_openReader (b : Binary) :
    (openReader b : Attempt σ ByteReader).Ends (fun _ => True) Q := by
  intro w
  rw [run_openReader]
  rcases b.openReader w.streams with ⟨_ | _, _⟩ <;> trivial

theorem ends_openStream (b : Binary) (loader : Option TypeLoader) :
    (openStream b loader : Attempt σ _).Ends (fun _ => True) Q :=
  fun _ => trivial

/-- Where nothing is yielded, any condition holds of what is. -/
theorem ends_result? (hx : x.Ends P Q) :
    x.result?.Ends (fun a? => ∀ a ∈ a?, P a) Q := by
  intro w
  have hw := hx w
  rw [run_result?]
  rcases hr : x.run w with ⟨cause | a?, t⟩ <;> rw [hr] at hw
  · exact hw
  · intro a ha
    rw [Option.mem_def.1 ha] at hw
    exact hw

end Attempt

-- =============================================================== causes

namespace Entry

open Converted

/-- Why the conversion of a value may be broken off: as a date, because
the timestamp that it stands for, or the object in it if it is a binary,
has no counterpart in UTC; as a string, if it is a binary, for lack of a
buffer to read it by or to hold it. -/
def MayBreakOff (provider : Provider) (v : Value) (target : ValueType) :
    Abort → Prop
  | .calendarOverflow => target = .date ∧
      ∃ u, (u = v ∨ ∃ b, v = .binary b) ∧
        (Converter.of u).toDate = .error .calendarOverflow
  | .bufferOverflow => target = .string ∧ ∃ b, v = .binary b ∧
      (provider.options.streamBufferSize ≤ bufferLimit &&
        b.source.fitsBuffer) = false

/-- The value is what the entry has, or an item of that. -/
def Offers (e : Entry σ) (v : Value) : Prop :=
  ∃ w w' whole, e.value w = (.ok whole, w') ∧
    (v = whole ∨ ∃ items, whole = .array items ∧ v ∈ items)

-- ========================================================== conversions

section Conversions

variable {session : Session σ} {provider : Provider} {e : Entry σ}
variable {Q : Abort → Prop}

/-- Every result of the converter has the kind it was asked for. -/
theorem ends_yield {target : ValueType} {kind : α → Value}
    (h : ∀ a, target.isInstance (kind a) = true) (c : Conversion α) :
    (Converted.value <$> Attempt.ofConversion (kind <$> c) :
      Attempt σ (Converted σ)).Ends (Fits target) Q := by
  cases c with
  | error _ => exact Attempt.ends_nothing
  | ok a => exact Attempt.ends_pure (.value (h a))

/-- Only the calendar breaks the conversion to a date off. -/
theorem ends_ofDate (c : Converter) :
    (Attempt.ofDate c.toDate : Attempt σ _).Ends (fun _ => True)
      fun cause => cause = .calendarOverflow ∧
        c.toDate = .error .calendarOverflow := by
  have hcause : ∀ cause, c.toDate = .error cause →
      cause = .calendarOverflow := by
    intro cause h
    unfold Converter.toDate at h
    split at h
    · cases h
    · split at h <;> cases h
      rfl
  cases hdate : c.toDate with
  | ok conversion => exact Attempt.ends_ofConversion conversion
  | error cause =>
    obtain rfl := hcause cause hdate
    exact Attempt.ends_abort ⟨rfl, rfl⟩

/-- Without a binary only a date can be broken off. -/
theorem ends_convertPlain (v : Value) (target : ValueType) :
    (convertPlain session e v target).Ends (Fits target)
      fun cause => cause = .calendarOverflow ∧ target = .date ∧
        (Converter.of v).toDate = .error .calendarOverflow := by
  unfold convertPlain
  dsimp only
  cases target with
  | string => exact Attempt.ends_pure (.value rfl)
  | date =>
    exact (Attempt.ends_map (ends_ofDate _) fun _ _ => .value rfl).mono
      fun _ ⟨hcause, hdate⟩ => ⟨hcause, rfl, hdate⟩
  | stored =>
    refine Attempt.ends_bind (Attempt.ends_ofAct _) fun stored? _ => ?_
    cases stored? with
    | none => exact Attempt.ends_nothing
    | some stored => exact Attempt.ends_pure (.stored stored)
  | property =>
    cases e.property? with
    | none => exact Attempt.ends_nothing
    | some p => exact Attempt.ends_pure (.property p)
  | unknown | binary | objectStream | serializable | object _ | array _ =>
    exact Attempt.ends_nothing
  | _ => exact ends_yield (fun _ => rfl) _

/-- Reading the text is broken off for the buffer alone. Where a stream
fails, there is no text. -/
theorem ends_textIn (bufferSize : Nat) (b : Binary)
    (h : (bufferSize ≤ bufferLimit && b.source.fitsBuffer) = false →
      Q .bufferOverflow) :
    (textIn bufferSize b : Attempt σ String).Ends (fun _ => True) Q := by
  refine Attempt.ends_bind (Attempt.ends_openReader b) fun reader _ => ?_
  split
  · split
    · exact Attempt.ends_pure trivial
    · exact Attempt.ends_nothing
  · next hbuffer => exact Attempt.ends_abort (h (by simpa using hbuffer))

/-- An object that cannot be read breaks nothing off. -/
theorem ends_objectIn (b : Binary) :
    (objectIn provider b : Attempt σ _).Ends (fun _ => True) Q := by
  refine Attempt.ends_bind (Attempt.ends_openStream b _) fun opened _ => ?_
  cases opened <;> exact Attempt.ends_pure trivial

/-- A binary breaks a conversion off for want of a buffer, or as a date by
the object in it. -/
theorem ends_convertBinary (place : Option Nat) (b : Binary)
    (target : ValueType) :
    (convertBinary session provider e place b target).Ends (Fits target)
      (MayBreakOff provider (.binary b) target) := by
  have hplain : ∀ u, (convertPlain session e u target).Ends (Fits target)
      (MayBreakOff provider (.binary b) target) := fun u =>
    (ends_convertPlain u target).mono fun cause ⟨hcause, htarget, hdate⟩ => by
      rw [hcause]
      exact ⟨htarget, u, .inr ⟨b, rfl⟩, hdate⟩
  -- the targets in the order in which they are tried; only the text of
  -- the binary needs a buffer
  unfold convertBinary
  split
  · next htarget =>
    refine Attempt.ends_bind (Attempt.ends_openStream b _) fun opened _ => ?_
    cases opened with
    | error _ => exact hplain _
    | ok stream =>
      rw [htarget]
      exact Attempt.ends_pure (.stream stream)
  split
  · cases e.property? with
    | none => exact Attempt.ends_nothing
    | some p =>
      exact Attempt.ends_bind (Attempt.ends_ofAct _) fun _ _ => hplain _
  split
  · next htarget =>
    rw [htarget]
    refine Attempt.ends_bind (ends_textIn _ b fun hbuffer => ?_)
      fun text _ => Attempt.ends_pure (.value rfl)
    exact ⟨rfl, b, rfl, hbuffer⟩
  split
  · refine Attempt.ends_bind (ends_objectIn b) fun o? _ => ?_
    cases o? with
    | none => exact hplain _
    | some o =>
      dsimp only
      split
      · next hinstance => exact Attempt.ends_pure (.value hinstance)
      · exact hplain _
  · exact hplain _

/-- A value that has the target type already fits as it is. -/
theorem ends_convertScalar (place : Option Nat) (v : Value)
    (target : ValueType) :
    (convertScalar session provider e place v target).Ends (Fits target)
      (MayBreakOff provider v target) := by
  unfold convertScalar
  split
  · next hinstance => exact Attempt.ends_pure (.value hinstance)
  split
  · exact ends_convertBinary place _ target
  · exact (ends_convertPlain _ target).mono
      fun cause ⟨hcause, htarget, hdate⟩ => by
        rw [hcause]
        exact ⟨htarget, _, .inl rfl, hdate⟩

/-- The results of the items fit, and only an item breaks the conversion
off. -/
theorem ends_convertItems (target : ValueType) (vs : List Value)
    (place : Nat) :
    (convertItems session provider e target place vs).Ends
      (fun cs => ∀ c ∈ cs, Fits target c)
      fun cause => ∃ v ∈ vs, MayBreakOff provider v target cause := by
  induction vs generalizing place with
  | nil => exact Attempt.ends_pure (by simp)
  | cons v rest ih =>
    have hfirst :
        (convertScalar session provider e (some place) v target).Ends
          (Fits target)
          fun cause => ∃ u ∈ v :: rest, MayBreakOff provider u target cause :=
      (ends_convertScalar (some place) v target).mono fun cause h =>
        ⟨v, List.mem_cons_self, h⟩
    refine Attempt.ends_bind (Attempt.ends_result? hfirst) fun c? hc => ?_
    refine Attempt.ends_bind ((ih (place + 1)).mono ?_) fun cs hcs => ?_
    · rintro cause ⟨u, hu, h⟩
      exact ⟨u, List.mem_cons_of_mem v hu, h⟩
    · refine Attempt.ends_pure fun c hmem => ?_
      rcases List.mem_append.1 hmem with hmem | hmem
      · exact hc c (by simpa using hmem)
      · exact hcs c hmem

/-- Whatever a conversion yields has the type that was asked for, and it is
broken off for no cause but one of a value that it comes to. -/
theorem ends_attempt (target : ValueType) :
    (attempt session provider e target).Ends (Fits target)
      fun cause => ∃ v item, e.Offers v ∧
        (target = item ∨ target = .array item) ∧
        MayBreakOff provider v item cause := by
  unfold attempt attemptOf
  refine Attempt.ends_bind (Attempt.ends_ofAct _) fun whole hwhole => ?_
  obtain ⟨w, w', hwhole⟩ := hwhole
  -- any number of values, and one value, each to an array or to one
  split
  · dsimp only
    split
    · next item =>
      refine Attempt.ends_map ((ends_convertItems _ _ _).mono ?_)
        fun _ => .array
      rintro cause ⟨v, hv, h⟩
      refine ⟨v, item, ⟨w, w', whole, hwhole, ?_⟩, .inr rfl, h⟩
      split at hv
      · next items => exact .inr ⟨items, rfl, hv⟩
      · exact .inl (List.mem_singleton.1 hv)
    · next target _ _ first rest _ hitems =>
      refine (ends_convertScalar _ _ _).mono fun cause h => ?_
      refine ⟨first, target, ⟨w, w', whole, hwhole, ?_⟩, .inl rfl, h⟩
      split at hitems
      · next items =>
        rw [hitems]
        exact .inr ⟨_, rfl, List.mem_cons_self⟩
      · cases hitems
        exact .inl rfl
    · exact Attempt.ends_nothing
  · have hoffers : e.Offers whole := ⟨w, w', whole, hwhole, .inl rfl⟩
    split
    · next item =>
      refine Attempt.ends_bind (Attempt.ends_result?
        ((ends_convertScalar none whole item).mono fun cause h => ?_))
        fun c? hc => Attempt.ends_pure (.array fun c hmem => ?_)
      · exact ⟨whole, item, hoffers, .inr rfl, h⟩
      · exact hc c (by simpa using hmem)
    · refine (ends_convertScalar _ _ _).mono fun cause h => ?_
      exact ⟨whole, target, hoffers, .inl rfl, h⟩

/-- A call of the conversion ends in what the attempt allows. -/
theorem allowed_of_convert {target : ValueType} {w w' : World σ}
    {outcome : Except Abort (Option (Converted σ))}
    (h : e.convert session provider target w = (outcome, w')) :
    Attempt.Allowed (Fits target)
      (fun cause => ∃ v item, e.Offers v ∧
        (target = item ∨ target = .array item) ∧
        MayBreakOff provider v item cause) outcome := by
  have hends : (attempt session provider e target).Ends (Fits target) _ :=
    ends_attempt target
  have hw := hends w
  rw [show (attempt session provider e target).run w = _ from h] at hw
  exact hw

/-- A conversion that yields a result yields one that fits. -/
theorem fits_of_convert {target : ValueType} {w w' : World σ}
    {c : Converted σ}
    (h : e.convert session provider target w = (.ok (some c), w')) :
    Fits target c :=
  allowed_of_convert h

/-- A conversion that is broken off has come to a value that breaks it
off. -/
theorem mayBreakOff_of_convert {target : ValueType} {w w' : World σ}
    {cause : Abort}
    (h : e.convert session provider target w = (.error cause, w')) :
    ∃ v item, e.Offers v ∧ (target = item ∨ target = .array item) ∧
      MayBreakOff provider v item cause :=
  allowed_of_convert h

end Conversions

end Entry

end ContentProperties
