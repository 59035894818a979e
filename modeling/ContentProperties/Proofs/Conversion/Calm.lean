/-
Conversions are readings. A conversion opens streams, asks a property
for its value and its lengths, and may have the session create binaries,
but it writes to no node: what the repository holds is kept, however the
conversion ends, if asking the property and creating binaries keep it.

`Calm` says that of a property, a session and an entry, for any view of
the repository; `keeps_convert` carries it through a whole conversion.
-/
import ContentProperties.Proofs.Conversion.Attempts

namespace ContentProperties

variable {σ T α β : Type} (view : σ → T)

-- ======================================================== calm parties

/-- Asking the property for anything keeps the view of the repository. -/
structure Property.Calm (p : Property σ) : Prop where
  value : Keeps (fun w : World σ => view w.repo) p.value
  length : Keeps (fun w : World σ => view w.repo) p.length
  lengths : Keeps (fun w : World σ => view w.repo) p.lengths

/-- Creating a binary keeps the view of the repository. -/
def Session.Calm (session : Session σ) : Prop :=
  ∀ bytes, Keeps (fun w : World σ => view w.repo) (session.createBinary bytes)

/-- The property behind the entry, if any, is calm. -/
def Entry.Calm (e : Entry σ) : Prop :=
  ∀ p, e.property? = some p → p.Calm view

variable {view}

/-- An entry for a value that is to be written has no property to ask. -/
theorem Entry.calm_pending (v : Value) (isArray : Bool) :
    Entry.Calm view (⟨.pending v, isArray⟩ : Entry σ) := by
  intro p hp
  cases hp

/-- Storing a serializable object creates a binary, which is all that
storing asks of a session. -/
theorem keeps_store? {session : Session σ} (hs : session.Calm view)
    (v : Value) :
    Keeps (fun w : World σ => view w.repo) (session.store? v) := by
  unfold Session.store?
  split
  · split
    · exact keeps_bind (hs _) fun _ => keeps_pure _
    · exact keeps_pure _
  · exact keeps_pure _

/-- The value of an entry is there, or is asked of its property. -/
theorem Entry.keeps_value {e : Entry σ} (he : e.Calm view) :
    Keeps (fun w : World σ => view w.repo) e.value := by
  unfold Entry.value
  split
  · exact keeps_pure _
  · next p horigin =>
    exact (he p (by simp [Entry.property?, horigin])).value
  · exact keeps_pure _

-- ============================================================= attempts

namespace Attempt

theorem keeps_pure (a : α) :
    Keeps (fun w : World σ => view w.repo) (pure a : Attempt σ α).run :=
  fun _ => rfl

theorem keeps_nothing :
    Keeps (fun w : World σ => view w.repo) (nothing : Attempt σ α).run :=
  fun _ => rfl

/-- Attempts in a row keep what each of them keeps. -/
theorem keeps_bind {x : Attempt σ α} {f : α → Attempt σ β}
    (hx : Keeps (fun w : World σ => view w.repo) x.run)
    (hf : ∀ a, Keeps (fun w : World σ => view w.repo) (f a).run) :
    Keeps (fun w : World σ => view w.repo) (x >>= f).run := by
  rw [OptionT.run_bind]
  refine ContentProperties.keeps_bind hx fun a? => ?_
  cases a? with
  | none => exact fun _ => rfl
  | some a => exact hf a

theorem keeps_map {x : Attempt σ α}
    (hx : Keeps (fun w : World σ => view w.repo) x.run) (f : α → β) :
    Keeps (fun w : World σ => view w.repo) (f <$> x).run := by
  rw [show f <$> x = x >>= fun a => pure (f a) from
    (bind_pure_comp f x).symm]
  exact keeps_bind hx fun _ => keeps_pure _

/-- An attempt that is one call keeps what the call keeps, whether it fails
or not. -/
theorem keeps_ofAct {act : Act σ α}
    (h : Keeps (fun w : World σ => view w.repo) act) :
    Keeps (fun w : World σ => view w.repo) (ofAct act).run := by
  intro w
  have hw := h w
  rw [run_ofAct]
  rcases hr : act w with ⟨_ | _, t⟩ <;> rw [hr] at hw <;> exact hw

theorem keeps_ofConversion (c : Conversion α) :
    Keeps (fun w : World σ => view w.repo)
      (ofConversion c : Attempt σ α).run := by
  cases c <;> exact fun _ => rfl

theorem keeps_ofDate (c : Except Abort (Conversion α)) :
    Keeps (fun w : World σ => view w.repo) (ofDate c : Attempt σ α).run := by
  cases c with
  | error cause => exact fun _ => rfl
  | ok conversion => exact keeps_ofConversion conversion

/-- Which one-shot streams are used up is no part of a repository. -/
theorem keeps_openReader (b : Binary) :
    Keeps (fun w : World σ => view w.repo) (openReader b).run := by
  intro w
  rw [run_openReader]
  rcases b.openReader w.streams with ⟨_ | _, t⟩ <;> rfl

theorem keeps_openStream (b : Binary) (loader : Option TypeLoader) :
    Keeps (fun w : World σ => view w.repo) (openStream b loader).run :=
  fun _ => rfl

/-- To go on where nothing was yielded has no effect of its own. -/
theorem keeps_result? {x : Attempt σ α}
    (hx : Keeps (fun w : World σ => view w.repo) x.run) :
    Keeps (fun w : World σ => view w.repo) x.result?.run := by
  intro w
  have hw := hx w
  rw [run_result?]
  rcases hr : x.run w with ⟨_ | _, t⟩ <;> rw [hr] at hw <;> exact hw

end Attempt

-- ========================================================== conversions

namespace Entry

variable {session : Session σ} {provider : Provider} {e : Entry σ}

/-- Of all targets only a stored value asks anybody, namely the session. -/
theorem keeps_convertPlain (hs : session.Calm view) (v : Value)
    (target : ValueType) :
    Keeps (fun w : World σ => view w.repo)
      (convertPlain session e v target).run := by
  unfold convertPlain
  cases target with
  | string => exact Attempt.keeps_pure _
  | date => exact Attempt.keeps_map (Attempt.keeps_ofDate _) _
  | stored =>
    refine Attempt.keeps_bind (Attempt.keeps_ofAct (keeps_store? hs v))
      fun stored? => ?_
    cases stored? with
    | none => exact Attempt.keeps_nothing
    | some _ => exact Attempt.keeps_pure _
  | property =>
    cases e.property? with
    | none => exact Attempt.keeps_nothing
    | some _ => exact Attempt.keeps_pure _
  | unknown | binary | objectStream | serializable | object _ | array _ =>
    exact Attempt.keeps_nothing
  | _ => exact Attempt.keeps_map (Attempt.keeps_ofConversion _) _

/-- The lengths of binaries are asked of their property. -/
theorem keeps_binaryLength {p : Property σ} (hp : p.Calm view)
    (place : Option Nat) :
    Keeps (fun w : World σ => view w.repo) (binaryLength p place) := by
  unfold binaryLength
  split
  · exact hp.length
  · refine keeps_bind hp.lengths fun lengths => ?_
    split
    · exact keeps_pure _
    · exact keeps_throw _

theorem keeps_textIn (bufferSize : Nat) (b : Binary) :
    Keeps (fun w : World σ => view w.repo) (textIn bufferSize b).run := by
  refine Attempt.keeps_bind (Attempt.keeps_openReader b) fun reader => ?_
  split
  · split
    · exact Attempt.keeps_pure _
    · exact Attempt.keeps_nothing
  · exact fun _ => rfl

theorem keeps_objectIn (provider : Provider) (b : Binary) :
    Keeps (fun w : World σ => view w.repo) (objectIn provider b).run := by
  refine Attempt.keeps_bind (Attempt.keeps_openStream b _) fun opened => ?_
  cases opened <;> exact Attempt.keeps_pure _

/-- A binary may be opened, and its property be asked for lengths. What
comes of that is converted as a plain value. -/
theorem keeps_convertBinary (hs : session.Calm view) (he : e.Calm view)
    (place : Option Nat) (b : Binary) (target : ValueType) :
    Keeps (fun w : World σ => view w.repo)
      (convertBinary session provider e place b target).run := by
  unfold convertBinary
  split
  · refine Attempt.keeps_bind (Attempt.keeps_openStream b _) fun opened => ?_
    cases opened with
    | error _ => exact keeps_convertPlain hs _ _
    | ok _ => exact Attempt.keeps_pure _
  split
  · split
    · exact Attempt.keeps_nothing
    · next p hp =>
      exact Attempt.keeps_bind
        (Attempt.keeps_ofAct (keeps_binaryLength (he p hp) place))
        fun _ => keeps_convertPlain hs _ _
  split
  · exact Attempt.keeps_bind (keeps_textIn _ b) fun _ => Attempt.keeps_pure _
  split
  · refine Attempt.keeps_bind (keeps_objectIn provider b) fun o? => ?_
    cases o? with
    | none => exact keeps_convertPlain hs _ _
    | some o =>
        dsimp only
        split
        · exact Attempt.keeps_pure _
        · exact keeps_convertPlain hs _ _
  · exact keeps_convertPlain hs _ _

/-- A value that has the target type already asks for nothing. -/
theorem keeps_convertScalar (hs : session.Calm view) (he : e.Calm view)
    (place : Option Nat) (v : Value) (target : ValueType) :
    Keeps (fun w : World σ => view w.repo)
      (convertScalar session provider e place v target).run := by
  unfold convertScalar
  split
  · exact Attempt.keeps_pure _
  split
  · exact keeps_convertBinary hs he place _ _
  · exact keeps_convertPlain hs _ _

/-- Items are converted one after the other, each by a conversion that keeps
the view. -/
theorem keeps_convertItems (hs : session.Calm view) (he : e.Calm view)
    (target : ValueType) (vs : List Value) (place : Nat) :
    Keeps (fun w : World σ => view w.repo)
      (convertItems session provider e target place vs).run := by
  induction vs generalizing place with
  | nil => exact Attempt.keeps_pure _
  | cons v rest ih =>
    exact Attempt.keeps_bind
      (Attempt.keeps_result? (keeps_convertScalar hs he _ v target))
      fun _ => Attempt.keeps_bind (ih _) fun _ => Attempt.keeps_pure _

/-- A conversion keeps what a repository holds. -/
theorem keeps_convert (hs : session.Calm view) (he : e.Calm view)
    (target : ValueType) :
    Keeps (fun w : World σ => view w.repo)
      (e.convert session provider target) := by
  unfold convert attempt attemptOf
  refine Attempt.keeps_bind (Attempt.keeps_ofAct (keeps_value he))
    fun v => ?_
  split
  · dsimp only
    split
    · exact Attempt.keeps_map (keeps_convertItems hs he _ _ _) _
    · exact keeps_convertScalar hs he _ _ _
    · exact Attempt.keeps_nothing
  · split
    · exact Attempt.keeps_bind
        (Attempt.keeps_result? (keeps_convertScalar hs he _ _ _))
        fun _ => Attempt.keeps_pure _
    · exact keeps_convertScalar hs he _ _ _

end Entry

end ContentProperties
