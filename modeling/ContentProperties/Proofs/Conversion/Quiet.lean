/-
Conversions leave no trace in a log. A conversion asks properties for
their values and lengths, opens streams, and creates binaries; none of
that is a question to the node. On a node with a log it therefore yields
what it yields on the node, and notes nothing (`follows_convert`).
-/
import ContentProperties.Proofs.Conversion.Attempts
import ContentProperties.Proofs.Repository.CallLog

namespace ContentProperties

variable {σ α β γ : Type}

-- ============================================= values of a logged node

/-- Where the value of an entry comes from, on the node with a log: the
property asks with a note. -/
def Origin.logged : Origin σ → Origin (Logged σ)
  | .stored p v? => .stored p.logged v?
  | .pending v => .pending v

def Entry.logged (e : Entry σ) : Entry (Logged σ) :=
  ⟨e.origin.logged, e.isArray⟩

/-- The property behind an entry is the logged one. -/
theorem Entry.property?_logged (e : Entry σ) :
    e.logged.property? = e.property?.map Property.logged := by
  unfold Entry.property? Entry.logged
  cases e.origin <;> rfl

mutual

/-- A result as a node with a log yields it. Only a property that was handed
out knows of the log. -/
def Converted.logged : Converted σ → Converted (Logged σ)
  | .value v => .value v
  | .stored v => .stored v
  | .property p => .property p.logged
  | .stream s => .stream s
  | .array items => .array (Converted.loggedAll items)

def Converted.loggedAll : List (Converted σ) → List (Converted (Logged σ))
  | [] => []
  | c :: rest => c.logged :: Converted.loggedAll rest

end

theorem Converted.loggedAll_eq_map (items : List (Converted σ)) :
    Converted.loggedAll items = items.map Converted.logged := by
  induction items with
  | nil => rfl
  | cons c rest ih => rw [Converted.loggedAll, ih, List.map_cons]

/-- The value of an entry is cached, or asked of its property, which is no
question to the node. -/
theorem follows_entry_value (e : Entry σ) :
    Follows World.logged Quiet id e.value e.logged.value := by
  unfold Entry.value Entry.logged
  cases e.origin with
  | stored p v? =>
    cases v? with
    | some v => exact follows_pure v
    | none => exact follows_unnoted p.value
  | pending v => exact follows_pure v

/-- An entry for a property asks for the value at once, unless it is binary;
neither is noted. -/
theorem follows_ofProperty (p : Property σ) :
    Follows World.logged Quiet Entry.logged (Entry.ofProperty p)
      (Entry.ofProperty p.logged) := by
  unfold Entry.ofProperty
  by_cases htype : p.type = .binary
  · rw [if_pos htype, if_pos (show p.logged.type = .binary from htype)]
    exact follows_pure _
  · rw [if_neg htype, if_neg (show ¬p.logged.type = .binary from htype)]
    exact follows_bind (follows_unnoted _) fun _ => follows_pure _

-- ============================================================ storing

/-- Whether a value can be stored is a question to the session, and no node
is asked. -/
theorem follows_checkStorable (session : Session σ) (v : Value) :
    Follows World.logged Quiet id (Entry.checkStorable session v)
      (Entry.checkStorable session.logged v) := by
  have hstore := Follows.run_of_quiet (follows_store? session v)
  unfold Entry.checkStorable
  split
  · exact follows_pure ()
  · refine follows_of_run fun w log => ?_
    rw [hstore w log]
    rcases session.store? v w with ⟨_ | _ | _, u⟩ <;> rfl

theorem follows_checkAllStorable (session : Session σ) (vs : List Value) :
    Follows World.logged Quiet id (Entry.checkAllStorable session vs)
      (Entry.checkAllStorable session.logged vs) := by
  induction vs with
  | nil => exact follows_pure ()
  | cons v rest ih =>
    exact follows_bind (follows_checkStorable session v) fun _ => ih

/-- An entry for a value that is to be written: its storing is tried, and
nothing is noted. -/
theorem follows_ofValue (session : Session σ) (v : Value) :
    Follows World.logged Quiet Entry.logged (Entry.ofValue session v)
      (Entry.ofValue session.logged v) := by
  unfold Entry.ofValue
  split
  · exact follows_bind (follows_checkAllStorable session _) fun _ =>
      follows_pure _
  · exact follows_bind (follows_checkStorable session v) fun _ =>
      follows_pure _

-- ============================================================ attempts

namespace Attempt

/-- An attempt on a world with a log yields what corresponds, and notes
nothing. -/
def Follows (f : α → β) (x : Attempt σ α) (y : Attempt (Logged σ) β) :
    Prop :=
  ContentProperties.Follows World.logged Quiet (Option.map f) x.run y.run

variable {f : α → β}

theorem follows_pure (a : α) :
    Follows f (pure a : Attempt σ α) (pure (f a)) :=
  follows_of_run fun _ _ => rfl

theorem follows_nothing :
    Follows f (nothing : Attempt σ α) (nothing : Attempt (Logged σ) β) :=
  follows_of_run fun _ _ => rfl

/-- Attempts in a row correspond if the first do, and the second do on
whatever the first yield. -/
theorem follows_bind {α' β' : Type} {g : α' → β'} {x : Attempt σ α}
    {y : Attempt (Logged σ) β} {xs : α → Attempt σ α'}
    {ys : β → Attempt (Logged σ) β'} (hx : Follows f x y)
    (hxs : ∀ a, Follows g (xs a) (ys (f a))) :
    Follows g (x >>= xs) (y >>= ys) := by
  unfold Follows
  rw [OptionT.run_bind, OptionT.run_bind]
  refine ContentProperties.follows_bind hx fun a? => ?_
  cases a? with
  | none => exact follows_of_run fun _ _ => rfl
  | some a => exact hxs a

/-- What is yielded may be changed on both sides, as far as the changes
commute with the correspondence. -/
theorem follows_map {α' β' : Type} {g : α' → β'} {h : α → α'} {k : β → β'}
    {x : Attempt σ α} {y : Attempt (Logged σ) β} (hx : Follows f x y)
    (hcomm : ∀ a, k (f a) = g (h a)) : Follows g (h <$> x) (k <$> y) := by
  rw [← bind_pure_comp, ← bind_pure_comp]
  refine follows_bind hx fun a => ?_
  rw [hcomm]
  exact follows_pure (h a)

/-- A call that is part of an attempt: where it fails, so does its
counterpart, and neither attempt yields anything. -/
theorem follows_ofAct {x : Act σ α} {y : Act (Logged σ) β}
    (h : ContentProperties.Follows World.logged Quiet f x y) :
    Follows f (ofAct x) (ofAct y) := by
  refine follows_of_run fun w log => ?_
  rw [run_ofAct, run_ofAct, h.run_of_quiet w log]
  rcases x w with ⟨_ | _, u⟩ <;> rfl

theorem follows_ofConversion (c : Conversion α) :
    Follows id (ofConversion c : Attempt σ α) (ofConversion c) := by
  cases c with
  | error _ => exact follows_nothing
  | ok a => exact follows_pure a

theorem follows_ofDate (c : Except Abort (Conversion α)) :
    Follows id (ofDate c : Attempt σ α) (ofDate c) := by
  cases c with
  | error cause => exact follows_of_run fun _ _ => rfl
  | ok conversion => exact follows_ofConversion conversion

/-- Streams are no part of the log: a one-shot stream is used up, or was
before, on both sides. -/
theorem follows_openReader (b : Binary) :
    Follows id (openReader b : Attempt σ ByteReader) (openReader b) := by
  refine follows_of_run fun w log => ?_
  rw [run_openReader, run_openReader,
    show (w.logged log).streams = w.streams from rfl]
  rcases b.openReader w.streams with ⟨_ | _, streams⟩ <;> rfl

theorem follows_openStream (b : Binary) (loader : Option TypeLoader) :
    Follows id (openStream b loader :
        Attempt σ (Except ObjectStreamError ObjectStream))
      (openStream b loader) :=
  follows_of_run fun _ _ => rfl

/-- An attempt that yields nothing does so on both sides, also where this is
made a result. -/
theorem follows_result? {x : Attempt σ α} {y : Attempt (Logged σ) β}
    (h : Follows f x y) : Follows (Option.map f) x.result? y.result? := by
  refine follows_of_run fun w log => ?_
  rw [run_result?, run_result?, h.run_of_quiet w log]
  rcases x.run w with ⟨_ | _, u⟩ <;> rfl

end Attempt

-- ========================================================= conversions

namespace Entry

variable {session : Session σ} {provider : Provider} {e : Entry σ}

/-- All but three targets are answered by the value alone. A stored value
asks the session, and a property comes from the entry. -/
theorem follows_convertPlain (v : Value) (target : ValueType) :
    Attempt.Follows Converted.logged (convertPlain session e v target)
      (convertPlain session.logged e.logged v target) := by
  have hyield : ∀ c : Conversion Value, Attempt.Follows Converted.logged
      (Converted.value <$> Attempt.ofConversion c : Attempt σ (Converted σ))
      (Converted.value <$> Attempt.ofConversion c) := fun c =>
    Attempt.follows_map (Attempt.follows_ofConversion c) fun _ => rfl
  unfold convertPlain
  dsimp only
  cases target with
  | string => exact Attempt.follows_pure _
  | date => exact Attempt.follows_map (Attempt.follows_ofDate _) fun _ => rfl
  | stored =>
    refine Attempt.follows_bind
      (Attempt.follows_ofAct (follows_store? session v)) fun stored? => ?_
    cases stored? with
    | none => exact Attempt.follows_nothing
    | some stored => exact Attempt.follows_pure _
  | property =>
    rw [property?_logged]
    cases e.property? with
    | none => exact Attempt.follows_nothing
    | some p => exact Attempt.follows_pure _
  | unknown | binary | objectStream | serializable | object _ | array _ =>
    exact Attempt.follows_nothing
  | _ => exact hyield _

/-- The length of a binary is asked of the property, not of the node. For an
item all lengths are asked for, and there may be too few. -/
theorem follows_binaryLength (p : Property σ) (place : Option Nat) :
    Follows World.logged Quiet id (binaryLength p place)
      (binaryLength p.logged place) := by
  cases place with
  | none => exact follows_unnoted p.length
  | some place =>
    refine follows_bind (follows_unnoted p.lengths) fun lengths => ?_
    dsimp only [id_eq]
    split
    · exact follows_pure _
    · exact follows_throw _

theorem follows_textIn (bufferSize : Nat) (b : Binary) :
    Attempt.Follows id (textIn bufferSize b : Attempt σ String)
      (textIn bufferSize b) := by
  refine Attempt.follows_bind (Attempt.follows_openReader b) fun reader => ?_
  dsimp only [id_eq]
  split
  · split
    · exact Attempt.follows_pure _
    · exact Attempt.follows_nothing
  · exact follows_of_run fun _ _ => rfl

theorem follows_objectIn (b : Binary) :
    Attempt.Follows id (objectIn provider b : Attempt σ _)
      (objectIn provider b) := by
  refine Attempt.follows_bind (Attempt.follows_openStream b _)
    fun opened => ?_
  cases opened <;> exact Attempt.follows_pure _

/-- A binary is opened, measured, or read as a text or an object, whichever
the target asks for, and then treated as any value. -/
theorem follows_convertBinary (place : Option Nat) (b : Binary)
    (target : ValueType) :
    Attempt.Follows Converted.logged
      (convertBinary session provider e place b target)
      (convertBinary session.logged provider e.logged place b target) := by
  unfold convertBinary
  split
  · refine Attempt.follows_bind (Attempt.follows_openStream b _)
      fun opened => ?_
    cases opened with
    | error _ => exact follows_convertPlain _ _
    | ok stream => exact Attempt.follows_pure _
  split
  · rw [property?_logged]
    cases e.property? with
    | none => exact Attempt.follows_nothing
    | some p =>
      exact Attempt.follows_bind
        (Attempt.follows_ofAct (follows_binaryLength p place))
        fun _ => follows_convertPlain _ _
  split
  · exact Attempt.follows_bind (follows_textIn _ b) fun _ =>
      Attempt.follows_pure _
  split
  · refine Attempt.follows_bind (follows_objectIn b) fun o? => ?_
    cases o? with
    | none => exact follows_convertPlain _ _
    | some o =>
      dsimp only [id_eq]
      split
      · exact Attempt.follows_pure _
      · exact follows_convertPlain _ _
  · exact follows_convertPlain _ _

/-- A value that has the target type already is left alone; others go the
way of binaries or of plain values. -/
theorem follows_convertScalar (place : Option Nat) (v : Value)
    (target : ValueType) :
    Attempt.Follows Converted.logged
      (convertScalar session provider e place v target)
      (convertScalar session.logged provider e.logged place v target) := by
  unfold convertScalar
  split
  · exact Attempt.follows_pure _
  split
  · exact follows_convertBinary place _ _
  · exact follows_convertPlain _ _

/-- The items of an array are converted one by one, at the same places, and
those that yield nothing are left out on both sides. -/
theorem follows_convertItems (target : ValueType) (vs : List Value)
    (place : Nat) :
    Attempt.Follows (List.map Converted.logged)
      (convertItems session provider e target place vs)
      (convertItems session.logged provider e.logged target place vs) := by
  induction vs generalizing place with
  | nil => exact Attempt.follows_pure _
  | cons v rest ih =>
    refine Attempt.follows_bind
      (Attempt.follows_result? (follows_convertScalar _ v target))
      fun c? => Attempt.follows_bind (ih _) fun cs => ?_
    have hitems : (c?.map Converted.logged).toList ++
        cs.map Converted.logged = (c?.toList ++ cs).map Converted.logged := by
      cases c? <;> simp
    rw [hitems]
    exact Attempt.follows_pure _

/-- A conversion on a node with a log yields what it yields on the node,
and notes nothing. -/
theorem follows_convert (target : ValueType) :
    Follows World.logged Quiet (Option.map Converted.logged)
      (e.convert session provider target)
      (e.logged.convert session.logged provider target) := by
  refine Attempt.follows_bind (Attempt.follows_ofAct (follows_entry_value e))
    fun v => ?_
  have harray : ∀ cs : List (Converted σ),
      Converted.array (cs.map Converted.logged) =
        (Converted.array cs).logged := by
    intro cs
    rw [Converted.logged, Converted.loggedAll_eq_map]
  show Attempt.Follows _ (if e.isArray then _ else _)
    (if e.isArray then _ else _)
  dsimp only [id_eq]
  -- The entry and the target may each be an array or not: four ways.
  split
  · split
    · exact Attempt.follows_map (follows_convertItems _ _ _) harray
    · exact follows_convertScalar _ _ _
    · exact Attempt.follows_nothing
  · split
    · refine Attempt.follows_bind
        (Attempt.follows_result? (follows_convertScalar _ _ _)) fun c? => ?_
      have hitems : (c?.map Converted.logged).toList =
          c?.toList.map Converted.logged := by
        cases c? <;> rfl
      rw [hitems, harray]
      exact Attempt.follows_pure _
    · exact follows_convertScalar _ _ _

end Entry

end ContentProperties
