/-
Running attempts. An attempt yields something, or nothing, or is broken
off; a sequence of attempts goes on only after the first outcome. Then
the conversions that finding a stored form and reading a value back go
through: of one value, and of the items of an array one by one.
-/
import ContentProperties.Proofs.Calls
import Mathlib.Data.List.Forall2

namespace ContentProperties

variable {σ α β : Type} {w w' : World σ}

namespace Attempt

-- =========================================================== sequences

theorem run_bind_of_some {x : Attempt σ α} {a : α}
    (h : x.run w = (.ok (some a), w')) (f : α → Attempt σ β) :
    (x >>= f).run w = (f a).run w' := by
  rw [OptionT.run_bind]
  exact run_bind_of_ok h _

theorem run_bind_of_none {x : Attempt σ α}
    (h : x.run w = (.ok none, w')) (f : α → Attempt σ β) :
    (x >>= f).run w = (.ok none, w') := by
  rw [OptionT.run_bind]
  exact run_bind_of_ok h _

theorem run_bind_of_abort {x : Attempt σ α} {cause : Abort}
    (h : x.run w = (.error cause, w')) (f : α → Attempt σ β) :
    (x >>= f).run w = (.error cause, w') := by
  rw [OptionT.run_bind]
  exact run_bind_of_error h _

theorem run_map_of_some {x : Attempt σ α} {a : α}
    (h : x.run w = (.ok (some a), w')) (f : α → β) :
    (f <$> x).run w = (.ok (some (f a)), w') := by
  rw [show f <$> x = x >>= fun a => pure (f a) from
    (bind_pure_comp f x).symm, run_bind_of_some h]
  rfl

theorem run_map_of_abort {x : Attempt σ α} {cause : Abort}
    (h : x.run w = (.error cause, w')) (f : α → β) :
    (f <$> x).run w = (.error cause, w') := by
  rw [show f <$> x = x >>= fun a => pure (f a) from
    (bind_pure_comp f x).symm, run_bind_of_abort h]

theorem run_ofAct (act : Act σ α) (w : World σ) :
    (ofAct act).run w = match act w with
      | (.ok a, w) => (.ok (some a), w)
      | (.error _, w) => (.ok none, w) := rfl

theorem run_ofAct_of_ok {act : Act σ α} {a : α}
    (h : act w = (.ok a, w')) : (ofAct act).run w = (.ok (some a), w') := by
  rw [run_ofAct, h]

theorem run_result? (x : Attempt σ α) (w : World σ) :
    x.result?.run w = match x.run w with
      | (.ok a?, w) => (.ok (some a?), w)
      | (.error e, w) => (.error e, w) := rfl

theorem run_result?_of_some {x : Attempt σ α} {a : α}
    (h : x.run w = (.ok (some a), w')) :
    x.result?.run w = (.ok (some (some a)), w') := by
  rw [run_result?, h]

theorem run_openStream (b : Binary) (loader : Option TypeLoader)
    (w : World σ) :
    (openStream b loader).run w =
      (.ok (some (ObjectStream.ofBinary b loader w.streams).1),
        ⟨(ObjectStream.ofBinary b loader w.streams).2, w.repo⟩) := rfl

theorem run_openReader (b : Binary) (w : World σ) :
    (openReader b).run w = match b.openReader w.streams with
      | (.ok reader, streams) => (.ok (some reader), ⟨streams, w.repo⟩)
      | (.error _, streams) => (.ok none, ⟨streams, w.repo⟩) := rfl

end Attempt

-- ============================================================= results

theorem ValueType.isArray_of_eq_false {v : Value} (hv : v.isArray = false) :
    (of v).isArray = false := by
  cases v with
  | array items => cases hv
  | _ => rfl

/-- Values that were converted to themselves collapse to themselves. -/
theorem Converted.run_toValues (vs : List Value) (w : World σ) :
    toValues (vs.map value) w = (vs, w) := by
  induction vs with
  | nil => rfl
  | cons v rest ih =>
    show ((v :: (toValues (rest.map value) w).1,
      (toValues (rest.map value) w).2) : List Value × World σ) = _
    rw [ih]

theorem Converted.run_toValue?_array (vs : List Value) (w : World σ) :
    toValue? (array (vs.map value)) w = (some (.array vs), w) := by
  show ((some (.array (toValues (vs.map value) w).1),
    (toValues (vs.map value) w).2) : Option Value × World σ) = _
  rw [run_toValues]

namespace Entry

variable {session : Session σ} {provider : Provider} {e : Entry σ}

-- ========================================================== properties

section Properties

variable {p : Property σ} {v : Value} (hp : ∀ w, p.value w = (.ok v, w))

include hp

/-- The entry of a property keeps the value that the property has, unless
that is a binary. -/
theorem run_ofProperty (w : World σ) : ofProperty p w =
    (.ok ⟨.stored p (if p.type = .binary then none else some v),
      p.multiple⟩, w) := by
  unfold ofProperty
  by_cases htype : p.type = .binary
  · rw [if_pos htype, if_pos htype]
    rfl
  · rw [if_neg htype, if_neg htype, run_bind_of_ok (hp w)]
    rfl

/-- A property whose value can be had has an entry with that value. -/
theorem exists_ofProperty : ∃ e, (∀ w, ofProperty p w = (.ok e, w)) ∧
    e.isArray = p.multiple ∧ (∀ w, e.value w = (.ok v, w)) ∧
    e.property? = some p := by
  refine ⟨_, run_ofProperty hp, rfl, fun w => ?_, rfl⟩
  unfold value
  by_cases htype : p.type = .binary
  · simp only [htype, if_true, hp w]
  · simp only [htype, if_false]
    rfl

end Properties

-- ============================================================== arrays

/-- An item that converts stands before what the items after it convert
to. -/
theorem run_convertItems_cons {target : ValueType} {place : Nat} {v : Value}
    {rest : List Value} {c : Converted σ} {cs : List (Converted σ)}
    {u : World σ}
    (hfirst : (convertScalar session provider e (some place) v target).run w =
      (.ok (some c), u))
    (hrest : (convertItems session provider e target (place + 1) rest).run u =
      (.ok (some cs), w')) :
    (convertItems session provider e target place (v :: rest)).run w =
      (.ok (some (c :: cs)), w') := by
  unfold convertItems
  rw [Attempt.run_bind_of_some (Attempt.run_result?_of_some hfirst),
    Attempt.run_bind_of_some hrest]
  rfl

/-- If every item converts, in whatever world it is its turn, then so do
all of them, in order. -/
theorem run_convertItems {target : ValueType} {R : Value → Converted σ → Prop}
    {I : World σ → Prop} {vs : List Value}
    (hvs : ∀ v ∈ vs, ∀ place w, I w → ∃ c w',
      (convertScalar session provider e place v target).run w =
        (.ok (some c), w') ∧ R v c ∧ I w')
    (place : Nat) (hw : I w) :
    ∃ cs w', (convertItems session provider e target place vs).run w =
        (.ok (some cs), w') ∧ List.Forall₂ R vs cs ∧ I w' := by
  induction vs generalizing w place with
  | nil => exact ⟨[], w, rfl, .nil, hw⟩
  | cons v rest ih =>
    obtain ⟨c, u, hc, hR, hu⟩ :=
      hvs v (List.mem_cons_self ..) (some place) w hw
    obtain ⟨cs, w', hcs, hall, hw'⟩ :=
      ih (fun v hv => hvs v (List.mem_cons_of_mem _ hv)) (place + 1) hu
    exact ⟨c :: cs, w', run_convertItems_cons hc hcs, .cons hR hall, hw'⟩

/-- A conversion is one of the value that the entry has. -/
theorem run_convert_of_value {target : ValueType} {v : Value}
    (hvalue : e.value w = (.ok v, w')) :
    e.convert session provider target w =
      (attemptOf session provider e v target).run w' := by
  unfold convert attempt
  exact Attempt.run_bind_of_some (Attempt.run_ofAct_of_ok hvalue) _

/-- To an array, an array is converted item by item. -/
theorem run_convert_array {target : ValueType} {vs : List Value}
    (harray : e.isArray = true) (hvalue : e.value w = (.ok (.array vs), w)) :
    e.convert session provider (.array target) w =
      (Converted.array <$>
        convertItems session provider e target 0 vs).run w := by
  rw [run_convert_of_value hvalue]
  unfold attemptOf
  simp only [harray, if_true]

/-- An array converts to an array of what its items convert to. -/
theorem run_convert_items {target : ValueType} {vs : List Value}
    {cs : List (Converted σ)} (harray : e.isArray = true)
    (hvalue : e.value w = (.ok (.array vs), w))
    (hitems : (convertItems session provider e target 0 vs).run w =
      (.ok (some cs), w')) :
    e.convert session provider (.array target) w =
      (.ok (some (.array cs)), w') := by
  rw [run_convert_array harray hvalue]
  exact Attempt.run_map_of_some hitems _

/-- One value converts to one value as a scalar does. -/
theorem run_convert_single {target : ValueType} {v : Value}
    (hsingle : e.isArray = false) (hvalue : e.value w = (.ok v, w))
    (htarget : target.isArray = false) :
    e.convert session provider target w =
      (convertScalar session provider e none v target).run w := by
  rw [run_convert_of_value hvalue]
  unfold attemptOf
  simp only [hsingle, Bool.false_eq_true, if_false]
  split
  · cases htarget
  · rfl

end Entry

end ContentProperties
