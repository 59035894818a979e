/-
Running calls. Every call of this library, of a node, of a map or of a
conversion, is a function from a state to an outcome and the next state.
This file opens the plumbing once: what a sequence of calls does, and
how to take a finished sequence apart again. Later files run calls by
these equations and never unfold the plumbing themselves.

# Views that a call keeps

Most calls leave most of the state alone. `Keeps view call` says that
the call leaves one view of the state as it was, however it ends; it is
closed under sequencing, so it is read off a definition line by line.
-/
import ContentProperties.Map.Writing

namespace ContentProperties

section Sequences

variable {ε S α β : Type}

-- ========================================================== sequences

@[simp] theorem run_pure (a : α) (s : S) :
    (pure a : ExceptT ε (StateM S) α) s = (.ok a, s) := rfl

@[simp] theorem run_throw (e : ε) (s : S) :
    (throw e : ExceptT ε (StateM S) α) s = (.error e, s) := rfl

/-- A sequence goes on where its first call ended, unless that failed. -/
theorem run_bind (x : ExceptT ε (StateM S) α)
    (f : α → ExceptT ε (StateM S) β) (s : S) :
    (x >>= f) s = match x s with
      | (.ok a, t) => f a t
      | (.error e, t) => (.error e, t) := by
  show (match x s with | (r, t) => ExceptT.bindCont f r t) = _
  rcases x s with ⟨_ | _, t⟩ <;> rfl

/-- A call that succeeded hands its result and its state on. -/
theorem run_bind_of_ok {x : ExceptT ε (StateM S) α} {s t : S} {a : α}
    (h : x s = (.ok a, t)) (f : α → ExceptT ε (StateM S) β) :
    (x >>= f) s = f a t := by
  rw [run_bind, h]

/-- What comes after a failure is not run. -/
theorem run_bind_of_error {x : ExceptT ε (StateM S) α} {s t : S} {e : ε}
    (h : x s = (.error e, t)) (f : α → ExceptT ε (StateM S) β) :
    (x >>= f) s = (.error e, t) := by
  rw [run_bind, h]

/-- A sequence that succeeded went through its first call. -/
theorem ok_of_run_bind {x : ExceptT ε (StateM S) α}
    {f : α → ExceptT ε (StateM S) β} {s u : S} {b : β}
    (h : (x >>= f) s = (.ok b, u)) :
    ∃ a t, x s = (.ok a, t) ∧ f a t = (.ok b, u) := by
  rw [run_bind] at h
  rcases hx : x s with ⟨e | a, t⟩
  · rw [hx] at h
    cases h
  · rw [hx] at h
    exact ⟨a, t, rfl, h⟩

/-- What is done to a result is not done to a failure. -/
theorem run_map (f : α → β) (x : ExceptT ε (StateM S) α) (s : S) :
    (f <$> x) s = match x s with
      | (.ok a, t) => (.ok (f a), t)
      | (.error e, t) => (.error e, t) := by
  rw [show f <$> x = x >>= fun a => pure (f a) from
    (bind_pure_comp f x).symm, run_bind]
  rcases x s with ⟨_ | _, t⟩ <;> rfl

theorem run_discard (x : ExceptT ε (StateM S) α) (s : S) :
    (discard x) s = match x s with
      | (.ok _, t) => (.ok (), t)
      | (.error e, t) => (.error e, t) :=
  run_map (fun _ => ()) x s

/-- Whether a call succeeds does not depend on its result being used. -/
theorem ok_of_run_discard {x : ExceptT ε (StateM S) α} {s t : S}
    (h : (discard x) s = (.ok (), t)) : ∃ a, x s = (.ok a, t) := by
  rw [run_discard] at h
  rcases hx : x s with ⟨e | a, u⟩ <;> rw [hx] at h <;> cases h
  exact ⟨a, rfl⟩

-- ================================================== views that are kept

variable {T : Type}

/-- However the call ends, this view of the state is as it was. -/
def Keeps (view : S → T) (x : ExceptT ε (StateM S) α) : Prop :=
  ∀ s, view (x s).2 = view s

variable {view : S → T}

theorem keeps_pure (a : α) : Keeps view (pure a : ExceptT ε (StateM S) α) :=
  fun _ => rfl

/-- A failure changes nothing. -/
theorem keeps_throw (e : ε) :
    Keeps view (throw e : ExceptT ε (StateM S) α) :=
  fun _ => rfl

/-- Calls in a row keep what each of them keeps, also when the first fails
and the second is not run. -/
theorem keeps_bind {x : ExceptT ε (StateM S) α}
    {f : α → ExceptT ε (StateM S) β} (hx : Keeps view x)
    (hf : ∀ a, Keeps view (f a)) : Keeps view (x >>= f) := by
  intro s
  have h := hx s
  rw [run_bind]
  rcases hr : x s with ⟨_ | a, t⟩ <;> rw [hr] at h
  · exact h
  · exact (hf a t).trans h

theorem keeps_map {x : ExceptT ε (StateM S) α} (hx : Keeps view x)
    (f : α → β) : Keeps view (f <$> x) := by
  intro s
  have h := hx s
  rw [run_map]
  rcases hr : x s with ⟨_ | _, t⟩ <;> rw [hr] at h <;> exact h

theorem keeps_discard {x : ExceptT ε (StateM S) α} (hx : Keeps view x) :
    Keeps view (discard x) :=
  keeps_map hx fun _ => ()

end Sequences

namespace MapM

variable {σ α T : Type}

-- ==================================================== calls of a map

/-- A failure that is taken as a value stops nothing; the world has moved on
all the same. -/
@[simp] theorem run_attempt (act : Act σ α) (s : MapState σ) :
    attempt act s =
      (.ok (act s.world).1, { s with world := (act s.world).2 }) := rfl

/-- A call on the world as a call of the map, which has its failures
reported as those of the repository. -/
theorem run_ofAct (act : Act σ α) (s : MapState σ) :
    ofAct act s = match act s.world with
      | (.ok a, w) => (.ok a, { s with world := w })
      | (.error e, w) => (.error (.repository e), { s with world := w }) := by
  rw [ofAct, run_bind]
  simp only [run_attempt]
  rcases act s.world with ⟨_ | _, w⟩ <;> rfl

/-- What runs in the world leaves cache and prefixes alone. -/
theorem run_ofWorld {β : Type} (run : StateM (World σ) β) (s : MapState σ) :
    ofWorld run s = (.ok (run s.world).1,
      { s with world := (run s.world).2 }) := rfl

/-- To make an entry may fail, and leaves the world as the failure found
it. -/
theorem run_ofEntry (run : ExceptT MapError (StateM (World σ)) α)
    (s : MapState σ) :
    ofEntry run s = ((run s.world).1, { s with world := (run s.world).2 }) := by
  rw [ofEntry, run_bind_of_ok (run_ofWorld _ s), ExceptT.run]
  rcases run s.world with ⟨_ | _, w⟩ <;> rfl

/-- A conversion that is broken off is a failure of the map, and never one
of the repository. -/
theorem run_ofConversion (run : ExceptT Abort (StateM (World σ)) α)
    (s : MapState σ) :
    ofConversion run s = match run s.world with
      | (.ok a, w) => (.ok a, { s with world := w })
      | (.error cause, w) =>
          (.error (.aborted cause), { s with world := w }) := by
  rw [ofConversion, run_bind_of_ok (run_ofWorld _ s), ExceptT.run]
  rcases run s.world with ⟨_ | _, w⟩ <;> rfl

/-- A call on the world that succeeded has changed the world alone. -/
theorem ok_of_run_ofAct {act : Act σ α} {s t : MapState σ} {a : α}
    (h : ofAct act s = (.ok a, t)) :
    ∃ w, act s.world = (.ok a, w) ∧ t = { s with world := w } := by
  rw [run_ofAct] at h
  rcases hact : act s.world with ⟨e | b, w⟩ <;> rw [hact] at h <;> cases h
  exact ⟨w, rfl, rfl⟩

/-- An entry that was made has changed the world alone. -/
theorem ok_of_run_ofEntry {run : ExceptT MapError (StateM (World σ)) α}
    {s t : MapState σ} {a : α} (h : ofEntry run s = (.ok a, t)) :
    ∃ w, run s.world = (.ok a, w) ∧ t = { s with world := w } := by
  rw [run_ofEntry] at h
  rcases hrun : run s.world with ⟨e | b, w⟩ <;> rw [hrun] at h <;> cases h
  exact ⟨w, rfl, rfl⟩

@[simp] theorem run_slots (s : MapState σ) :
    slots s = (.ok s.cache.slots, s) := rfl

@[simp] theorem run_isFullyRead (s : MapState σ) :
    isFullyRead s = (.ok s.cache.fullyRead, s) := rfl

/-- Slots change without the cache counting as read. -/
@[simp] theorem run_modifySlots (f : Dict (Slot σ) → Dict (Slot σ))
    (s : MapState σ) :
    modifySlots f s =
      (.ok (), { s with cache := ⟨f s.cache.slots, s.cache.fullyRead⟩ }) :=
  rfl

/-- That everything was read is noted beside the slots, which stay. -/
@[simp] theorem run_setFullyRead (s : MapState σ) :
    setFullyRead s =
      (.ok (), { s with cache := ⟨s.cache.slots, true⟩ }) := rfl

/-- The outcome of an operation as a value; its effects stay, failed or
not. -/
@[simp] theorem run_result (op : MapM σ α) (s : MapState σ) :
    result op s = (.ok (op s).1, (op s).2) := rfl

theorem run_mapError_of_ok {op : MapM σ α} {s t : MapState σ} {a : α}
    (h : op s = (.ok a, t)) (f : MapError → MapError) :
    mapError f op s = (.ok a, t) := by
  simp [mapError, h]

/-- A failure is reworded, and what it has left behind stays. -/
theorem run_mapError_of_error {op : MapM σ α} {s t : MapState σ}
    {e : MapError} (h : op s = (.error e, t)) (f : MapError → MapError) :
    mapError f op s = (.error (f e), t) := by
  simp [mapError, h]

-- ================================================ what a map call keeps

variable {view : MapState σ → T}

/-- A call on the world keeps whatever it keeps of the world, and the
cache and the prefixes in any case. -/
theorem keeps_ofAct {act : Act σ α}
    (h : ∀ s : MapState σ,
      view { s with world := (act s.world).2 } = view s) :
    Keeps view (ofAct act) := by
  intro s
  have hs := h s
  rw [run_ofAct]
  rcases hr : act s.world with ⟨_ | _, w⟩ <;> rw [hr] at hs <;> exact hs

/-- Making an entry keeps what does not see the change it makes to the
world. -/
theorem keeps_ofEntry {run : ExceptT MapError (StateM (World σ)) α}
    (h : ∀ s : MapState σ,
      view { s with world := (run s.world).2 } = view s) :
    Keeps view (ofEntry run) := by
  intro s
  rw [run_ofEntry]
  exact h s

/-- A conversion keeps what does not see the change it makes to the world,
broken off or not. -/
theorem keeps_ofConversion {run : ExceptT Abort (StateM (World σ)) α}
    (h : ∀ s : MapState σ,
      view { s with world := (run s.world).2 } = view s) :
    Keeps view (ofConversion run) := by
  intro s
  have hs := h s
  rw [run_ofConversion]
  rcases hr : run s.world with ⟨_ | _, w⟩ <;> rw [hr] at hs <;> exact hs

theorem keeps_result {op : MapM σ α} (h : Keeps view op) :
    Keeps view (result op) :=
  fun s => h s

end MapM

end ContentProperties
