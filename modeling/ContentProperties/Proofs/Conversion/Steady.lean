/-
Conversions that do not depend on the world. What a property holds may
be converted any number of times, in any order, among other conversions:
each time it ends as it always ends, and nothing else happens. What could
be otherwise is the opening of a stream that opens once only, a question
to a property, and the creation of a binary for an object. A property in
memory with content of known length gives rise to none of them.

`Steady` says of a call that it has one outcome. It is closed under
sequencing, so it is read off the definitions line by line, as `Keeps`
is.
-/
import ContentProperties.Proofs.Conversion.Attempts
import ContentProperties.Proofs.Repository.Contents

namespace ContentProperties

variable {σ ε S α β : Type}

-- ================================================================ calls

/-- The call has one outcome, in every state, and keeps the state. -/
def Steady (x : ExceptT ε (StateM S) α) : Prop :=
  ∃ r, ∀ s, x s = (r, s)

theorem steady_pure (a : α) : Steady (pure a : ExceptT ε (StateM S) α) :=
  ⟨.ok a, fun _ => rfl⟩

/-- Two calls in a row have one outcome if each of them has one. -/
theorem steady_bind {x : ExceptT ε (StateM S) α}
    {f : α → ExceptT ε (StateM S) β} (hx : Steady x)
    (hf : ∀ a, Steady (f a)) : Steady (x >>= f) := by
  obtain ⟨r, hr⟩ := hx
  cases r with
  | error e => exact ⟨.error e, fun s => run_bind_of_error (hr s) f⟩
  | ok a =>
    obtain ⟨r, hr'⟩ := hf a
    exact ⟨r, fun s => (run_bind_of_ok (hr s) f).trans (hr' s)⟩

/-- Content of known length opens any number of times, or never. -/
theorem steady_openReader {b : Binary} (hb : b.length?.isSome = true) :
    Steady b.openReader := by
  obtain ⟨id, source⟩ := b
  cases source with
  | buffered bytes => exact ⟨.ok ⟨bytes, false⟩, fun _ => rfl⟩
  | oneShot bytes => cases hb
  | provided claimed bytes failsToOpen failsAtEnd =>
    cases failsToOpen with
    | true => exact ⟨.error .openFailed, fun _ => rfl⟩
    | false => exact ⟨.ok ⟨bytes, failsAtEnd⟩, fun _ => rfl⟩

-- ============================================================= attempts

namespace Attempt

theorem steady_nothing : Steady (nothing : Attempt σ α).run :=
  ⟨.ok none, fun _ => rfl⟩

theorem steady_some (a : α) : Steady (pure a : Attempt σ α).run :=
  ⟨.ok (some a), fun _ => rfl⟩

theorem steady_abort (cause : Abort) :
    Steady (abort cause : Attempt σ α).run :=
  ⟨.error cause, fun _ => rfl⟩

theorem steady_bind {x : Attempt σ α} {f : α → Attempt σ β}
    (hx : Steady x.run) (hf : ∀ a, Steady (f a).run) :
    Steady (x >>= f).run := by
  rw [OptionT.run_bind]
  refine ContentProperties.steady_bind hx fun a? => ?_
  cases a? with
  | none => exact steady_pure none
  | some a => exact hf a

theorem steady_map {x : Attempt σ α} (hx : Steady x.run) (f : α → β) :
    Steady (f <$> x).run := by
  rw [show f <$> x = x >>= fun a => pure (f a) from
    (bind_pure_comp f x).symm]
  exact steady_bind hx fun _ => steady_some _

/-- A call that always fails makes an attempt that never yields anything. -/
theorem steady_ofAct {act : Act σ α} (h : Steady act) :
    Steady (ofAct act).run := by
  obtain ⟨r, hr⟩ := h
  cases r with
  | error e => exact ⟨.ok none, fun w => by rw [run_ofAct, hr]⟩
  | ok a => exact ⟨.ok (some a), fun w => run_ofAct_of_ok (hr w)⟩

theorem steady_ofConversion (c : Conversion α) :
    Steady (ofConversion c : Attempt σ α).run := by
  cases c with
  | error _ => exact steady_nothing
  | ok a => exact steady_some a

/-- A date that cannot be had aborts each time. -/
theorem steady_ofDate (c : Except Abort (Conversion α)) :
    Steady (ofDate c : Attempt σ α).run := by
  cases c with
  | error cause => exact steady_abort cause
  | ok conversion => exact steady_ofConversion conversion

/-- As part of an attempt, opening yields the same reader each time, or
nothing each time. -/
theorem steady_openReader {b : Binary} (hb : b.length?.isSome = true) :
    Steady (openReader b : Attempt σ ByteReader).run := by
  obtain ⟨r, hr⟩ := ContentProperties.steady_openReader hb
  cases r with
  | error _ => exact ⟨.ok none, fun w => by rw [run_openReader, hr]⟩
  | ok reader =>
    exact ⟨.ok (some reader), fun w => by rw [run_openReader, hr]⟩

/-- Whether a header is found does not depend on when the stream is
opened. -/
theorem steady_openStream {b : Binary} (hb : b.length?.isSome = true)
    (loader : Option TypeLoader) :
    Steady (openStream b loader : Attempt σ _).run := by
  obtain ⟨r, hr⟩ := ContentProperties.steady_openReader hb
  cases r with
  | error cause =>
    refine ⟨.ok (some (.error (.io cause))), fun w => ?_⟩
    rw [run_openStream]
    unfold ObjectStream.ofBinary
    rw [hr]
  | ok reader =>
    refine ⟨.ok (some ((ObjectStream.passHeader reader).map (⟨·, loader⟩))),
      fun w => ?_⟩
    rw [run_openStream]
    unfold ObjectStream.ofBinary
    rw [hr]

end Attempt

-- ========================================================== conversions

namespace Entry

variable {session : Session σ} {provider : Provider} {e : Entry σ}

/-- The length that a conversion takes the binary at a place to have. -/
def lengthAt (e : Entry σ) (place : Option Nat) : Attempt σ Nat :=
  match e.property? with
  | none => Attempt.nothing
  | some p => Attempt.ofAct (binaryLength p place)

/-- As a number a binary is its length. -/
theorem convertBinary_of_isNumeric {target : ValueType}
    (htarget : target.isNumeric = true) (place : Option Nat) (b : Binary) :
    convertBinary session provider e place b target =
      e.lengthAt place >>= fun n =>
        convertPlain session e (.long (Int64.ofNat n)) target := by
  have hstream : target ≠ .objectStream := fun h => by
    rw [h] at htarget
    cases htarget
  unfold convertBinary lengthAt
  rw [if_neg hstream, if_pos htarget]
  cases e.property? <;> rfl

/-- No number is a binary, so the length is always asked for. -/
theorem convertScalar_of_isNumeric {target : ValueType}
    (htarget : target.isNumeric = true) (place : Option Nat) (b : Binary) :
    convertScalar session provider e place (.binary b) target =
      e.lengthAt place >>= fun n =>
        convertPlain session e (.long (Int64.ofNat n)) target := by
  have hother : target.isInstance (.binary b) = false := by
    cases target <;> first | rfl | cases htarget
  unfold convertScalar
  rw [hother, if_neg (by decide)]
  exact convertBinary_of_isNumeric htarget place b

/-- Only the stored form of an object is a binary that is created. -/
theorem steady_convertPlain {v : Value} {target : ValueType}
    (h : target = .stored → ∀ o, v ≠ .object o) :
    Steady (convertPlain session e v target).run := by
  unfold convertPlain
  dsimp only
  cases target with
  | string => exact Attempt.steady_some _
  | date => exact Attempt.steady_map (Attempt.steady_ofDate _) _
  | stored =>
    have hstore : Steady (session.store? v) := by
      cases v with
      | object o => exact absurd rfl (h rfl o)
      | _ => exact steady_pure _
    refine Attempt.steady_bind (Attempt.steady_ofAct hstore)
      fun stored? => ?_
    cases stored? with
    | none => exact Attempt.steady_nothing
    | some stored => exact Attempt.steady_some _
  | property =>
    cases e.property? with
    | none => exact Attempt.steady_nothing
    | some p => exact Attempt.steady_some _
  | unknown | binary | objectStream | serializable | object _ | array _ =>
    exact Attempt.steady_nothing
  | _ => exact Attempt.steady_map (Attempt.steady_ofConversion _) _

/-- Content that can be opened again has the same text again. -/
theorem steady_textIn (bufferSize : Nat) {b : Binary}
    (hb : b.length?.isSome = true) :
    Steady (textIn bufferSize b : Attempt σ String).run := by
  refine Attempt.steady_bind (Attempt.steady_openReader hb) fun reader => ?_
  split
  · split
    · exact Attempt.steady_some _
    · exact Attempt.steady_nothing
  · exact Attempt.steady_abort _

/-- Content that can be opened again holds the same object again. -/
theorem steady_objectIn {b : Binary} (hb : b.length?.isSome = true) :
    Steady (objectIn provider b : Attempt σ _).run := by
  refine Attempt.steady_bind (Attempt.steady_openStream hb _)
    fun opened => ?_
  cases opened <;> exact Attempt.steady_some _

/-- A binary of known length is converted the same way each time, if its
property finds the same length each time. -/
theorem steady_convertBinary {b : Binary} (hb : b.length?.isSome = true)
    {place : Option Nat} (hlength : Steady (e.lengthAt place).run)
    (target : ValueType) :
    Steady (convertBinary session provider e place b target).run := by
  have hplain : ∀ target, Steady
      (convertPlain session e (.binary b) target).run := fun _ =>
    steady_convertPlain fun _ _ => Value.noConfusion
  by_cases hnumeric : target.isNumeric = true
  · rw [convertBinary_of_isNumeric hnumeric]
    exact Attempt.steady_bind hlength fun n =>
      steady_convertPlain fun _ _ => Value.noConfusion
  unfold convertBinary
  split
  · refine Attempt.steady_bind (Attempt.steady_openStream hb _)
      fun opened => ?_
    cases opened with
    | error _ => exact hplain _
    | ok stream => exact Attempt.steady_some _
  split
  · exact Attempt.steady_bind (steady_textIn _ hb) fun _ =>
      Attempt.steady_some _
  split
  · next hreads =>
    refine Attempt.steady_bind (steady_objectIn hb) fun o? => ?_
    cases o? with
    | none => exact hplain _
    | some o =>
      dsimp only
      split
      · exact Attempt.steady_some _
      -- an object is not read to be stored again
      · refine steady_convertPlain fun hstored => ?_
        rw [hstored] at hreads
        cases hreads
  · exact hplain _

/-- A value of known length is converted the same way each time, if its
entry finds the same length each time and no object is to be stored. -/
theorem steady_convertScalar {v : Value} {target : ValueType}
    (hv : v.HasLength) (hobject : target = .stored → ∀ o, v ≠ .object o)
    {place : Option Nat} (hlength : Steady (e.lengthAt place).run) :
    Steady (convertScalar session provider e place v target).run := by
  unfold convertScalar
  split
  · exact Attempt.steady_some _
  · cases v with
    | binary b => exact steady_convertBinary hv hlength target
    | _ => exact steady_convertPlain hobject

end Entry

end ContentProperties
