/-
Own types. Every value has a type that asks for a value like it, and an
array has that of its first item. Asked for in its own type, a single
value comes back as it is, and so does an array whose items have one
type. Any other array does not: each item becomes one of the type of the
first, or is dropped, so that what comes back is shorter or has at some
place a value of another type (`Entry.convert_to_own_type`).

# Method

Both directions rest on what it is to have the type of a value that is
no array: the value has it (`isInstance_of`), and whatever has it has
the same own type (`of_eq_of_isInstance`). The first lets every item of
a uniform array take the shortcut for values that are instances already.
The second needs no account of single conversions at all: what the items
convert to fits the type of the first (`ends_convertItems`), whichever
way it was made.
-/
import ContentProperties.Proofs.Conversion.Fitting
import ContentProperties.Repository.Memory

namespace ContentProperties

variable {σ : Type}

-- ========================================================== own types

namespace ValueType

theorem isInstance_of {v : Value} (hv : v.isArray = false) :
    (of v).isInstance v = true := by
  cases v with
  | array items => cases hv
  | object o => simp [isInstance, of]
  | _ => rfl

/-- What has the type of a value that is no array asks for the same
type. -/
theorem of_eq_of_isInstance {v u : Value} (hv : v.isArray = false)
    (h : (of v).isInstance u = true) : of u = of v := by
  cases v with
  | array items => cases hv
  | object o =>
    cases u with
    | object p => simpa [isInstance, of] using h
    | _ => cases h
  | _ => cases u <;> first | rfl | cases h

end ValueType

namespace Value

/-- The value is no array, or one whose items have one type. -/
def IsUniform : Value → Prop
  | .array vs => ∀ v ∈ vs, ∀ u ∈ vs, ValueType.of v = ValueType.of u
  | _ => True

/-- Both values are arrays, of different lengths or with items of
different types at some place. -/
def IsUnlike (v u : Value) : Prop :=
  ∃ vs us, v = .array vs ∧ u = .array us ∧
    (us.length ≠ vs.length ∨ ∃ (place : Nat) (v u : Value),
      vs[place]? = some v ∧ us[place]? = some u ∧
        ValueType.of u ≠ ValueType.of v)

theorem not_isUnlike_self (v : Value) : ¬v.IsUnlike v := by
  rintro ⟨vs, us, rfl, hus, hunlike⟩
  cases hus
  rcases hunlike with hlength | ⟨place, v, u, hv, hu, htype⟩
  · exact hlength rfl
  · rw [hv] at hu
    cases hu
    exact htype rfl

/-- An array that is not uniform is unlike every array whose items have
one type. -/
theorem isUnlike_of_not_isUniform {vs us : List Value} {t : ValueType}
    (hvs : ¬(Value.array vs).IsUniform)
    (hus : ∀ u ∈ us, ValueType.of u = t) :
    (Value.array vs).IsUnlike (.array us) := by
  refine ⟨vs, us, rfl, rfl, ?_⟩
  by_cases hlength : us.length = vs.length
  · refine .inr ?_
    -- were all items of the type `t`, the array would be uniform
    obtain ⟨v, hv, hvt⟩ : ∃ v ∈ vs, ValueType.of v ≠ t := by
      by_contra hall
      push Not at hall
      exact hvs fun v hv u hu => (hall v hv).trans (hall u hu).symm
    obtain ⟨place, hplace, rfl⟩ := List.mem_iff_getElem.1 hv
    refine ⟨place, vs[place], us[place], List.getElem?_eq_getElem hplace,
      List.getElem?_eq_getElem (by omega), fun heq => hvt ?_⟩
    rw [← heq]
    exact hus _ (List.getElem_mem _)
  · exact .inl hlength

end Value

namespace Converted

/-- A result that fits the own type of a value that is no array is a
value of that type. -/
theorem Fits.exists_value {v : Value} (hv : v.isArray = false)
    {c : Converted σ} (h : c.Fits (ValueType.of v)) :
    ∃ u, c = .value u ∧ ValueType.of u = ValueType.of v := by
  cases v with
  | array items => cases hv
  | _ =>
    cases h with
    | value hu => exact ⟨_, rfl, ValueType.of_eq_of_isInstance rfl hu⟩

theorem exists_values {v : Value} (hv : v.isArray = false)
    {cs : List (Converted σ)} (h : ∀ c ∈ cs, c.Fits (ValueType.of v)) :
    ∃ us : List Value, cs = us.map .value ∧
      ∀ u ∈ us, ValueType.of u = ValueType.of v := by
  induction cs with
  | nil => exact ⟨[], rfl, by simp⟩
  | cons c rest ih =>
    obtain ⟨u, rfl, hu⟩ := (h c List.mem_cons_self).exists_value hv
    obtain ⟨us, rfl, hus⟩ := ih fun c hc => h c (List.mem_cons_of_mem _ hc)
    exact ⟨u :: us, rfl, List.forall_mem_cons.2 ⟨hu, hus⟩⟩

end Converted

namespace Entry

variable {session : Session σ} {provider : Provider} {w w' : World σ}

-- ================================================== entries of values

/-- Arrays have no stored form. -/
theorem isArray_of_checkStorable {v : Value}
    (h : checkStorable session v w = (.ok (), w')) : v.isArray = false := by
  cases v with
  | array items => cases h
  | _ => rfl

theorem isArray_of_checkAllStorable {vs : List Value}
    (h : checkAllStorable session vs w = (.ok (), w')) :
    ∀ v ∈ vs, v.isArray = false := by
  induction vs generalizing w with
  | nil => simp
  | cons v rest ih =>
    unfold checkAllStorable at h
    obtain ⟨_, u, hv, hrest⟩ := ok_of_run_bind h
    exact List.forall_mem_cons.2 ⟨isArray_of_checkStorable hv, ih hrest⟩

/-- The entry of a value holds the value, and if that is an array none of
its items is one. -/
theorem of_ofValue {v : Value} {e : Entry σ}
    (h : ofValue session v w = (.ok e, w')) :
    e = ⟨.pending v, v.isArray⟩ ∧
      ∀ vs, v = .array vs → ∀ u ∈ vs, u.isArray = false := by
  cases v with
  | array vs =>
    obtain ⟨_, u, hcheck, he⟩ := ok_of_run_bind h
    cases he
    refine ⟨rfl, fun us hus => ?_⟩
    cases hus
    exact isArray_of_checkAllStorable hcheck
  | _ =>
    obtain ⟨_, u, -, he⟩ := ok_of_run_bind h
    cases he
    exact ⟨rfl, fun us hus => nomatch hus⟩

-- ====================================================== results as values

/-- Converts an entry, and takes the result as a value if it can be
one. -/
def convertToValue? (session : Session σ) (provider : Provider)
    (e : Entry σ) (target : ValueType) :
    ExceptT Abort (StateM (World σ)) (Option Value) := do
  match ← e.convert session provider target with
  | some c => ExceptT.lift c.toValue?
  | none => pure none

variable {e : Entry σ}

theorem run_convertToValue? {target : ValueType} {c : Converted σ} {v : Value}
    (h : e.convert session provider target w = (.ok (some c), w'))
    (hc : c.toValue? w' = (some v, w')) :
    e.convertToValue? session provider target w = (.ok (some v), w') := by
  unfold convertToValue?
  rw [run_bind_of_ok h]
  show ((.ok (c.toValue? w').1, (c.toValue? w').2) :
    Except Abort (Option Value) × World σ) = _
  rw [hc]

/-- A value that has the type already converts to itself. -/
theorem run_convertScalar_of_isInstance {target : ValueType} {v : Value}
    (hv : target.isInstance v = true) (place : Option Nat) (w : World σ) :
    (convertScalar session provider e place v target).run w =
      (.ok (some (.value v)), w) := by
  unfold convertScalar
  rw [if_pos hv]
  rfl

theorem run_convertItems_of_isInstance {target : ValueType} {vs : List Value}
    (hvs : ∀ v ∈ vs, target.isInstance v = true) (place : Nat)
    (w : World σ) :
    (convertItems session provider e target place vs).run w =
      (.ok (some (vs.map .value)), w) := by
  induction vs generalizing place with
  | nil => rfl
  | cons v rest ih =>
    exact run_convertItems_cons
      (run_convertScalar_of_isInstance (hvs v List.mem_cons_self) _ w)
      (ih (fun u hu => hvs u (List.mem_cons_of_mem _ hu)) (place + 1))

/-- The conversion of the items of an array may be broken off, but it
does not come to nothing. -/
theorem run_convertItems_ne_none (target : ValueType) (vs : List Value)
    (place : Nat) (w w' : World σ) :
    (convertItems session provider e target place vs).run w ≠
      (.ok none, w') := by
  induction vs generalizing place w w' with
  | nil => exact fun h => nomatch h
  | cons v rest ih =>
    intro h
    unfold convertItems at h
    rcases hfirst : (convertScalar session provider e (some place) v
      target).run w with ⟨cause | c?, u⟩
    · rw [Attempt.run_bind_of_abort (by rw [Attempt.run_result?, hfirst])]
        at h
      cases h
    · rw [Attempt.run_bind_of_some (by rw [Attempt.run_result?, hfirst])] at h
      rcases hrest : (convertItems session provider e target (place + 1)
        rest).run u with ⟨cause | _ | cs, t⟩
      · rw [Attempt.run_bind_of_abort hrest] at h
        cases h
      · exact ih (place + 1) u t hrest
      · rw [Attempt.run_bind_of_some hrest] at h
        cases h

-- ============================================================ round trips

/-- A value that is no array comes back in its own type as it is. -/
theorem convert_of_single (session : Session σ) (provider : Provider)
    {v : Value} (hv : v.isArray = false) (w : World σ) :
    convertToValue? session provider ⟨.pending v, v.isArray⟩
      (ValueType.of v) w = (.ok (some v), w) := by
  have hconvert : convert session provider ⟨.pending v, v.isArray⟩
      (ValueType.of v) w = (.ok (some (.value v)), w) := by
    rw [run_convert_single hv rfl (ValueType.isArray_of_eq_false hv)]
    exact run_convertScalar_of_isInstance (ValueType.isInstance_of hv) _ w
  exact run_convertToValue? hconvert rfl

/-- So does an array whose items have one type. -/
theorem convert_of_items (session : Session σ) (provider : Provider)
    {vs : List Value} (hvs : (Value.array vs).IsUniform)
    (hitems : ∀ v ∈ vs, v.isArray = false) (w : World σ) :
    convertToValue? session provider ⟨.pending (.array vs), true⟩
      (ValueType.of (.array vs)) w = (.ok (some (.array vs)), w) := by
  obtain ⟨target, htarget, hinstance⟩ :
      ∃ target, ValueType.of (.array vs) = .array target ∧
        ∀ v ∈ vs, target.isInstance v = true := by
    cases vs with
    | nil => exact ⟨.unknown, rfl, by simp⟩
    | cons first rest =>
      refine ⟨ValueType.of first, rfl, fun v hv => ?_⟩
      rw [hvs first List.mem_cons_self v hv]
      exact ValueType.isInstance_of (hitems v hv)
  rw [htarget]
  exact run_convertToValue? (run_convert_items rfl rfl
    (run_convertItems_of_isInstance hinstance 0 w))
    (Converted.run_toValue?_array vs w)

/-- A uniform value comes back in its own type as it is. -/
theorem convert_of_isUniform (session : Session σ) (provider : Provider)
    {v : Value} (hv : v.IsUniform)
    (hitems : ∀ vs, v = .array vs → ∀ u ∈ vs, u.isArray = false)
    (w : World σ) :
    convertToValue? session provider ⟨.pending v, v.isArray⟩
      (ValueType.of v) w = (.ok (some v), w) := by
  cases v with
  | array vs => exact convert_of_items session provider hv (hitems vs rfl) w
  | _ => exact convert_of_single session provider rfl w

/-- A value that is not uniform comes back in its own type as something
unlike it, unless the conversion of an item is broken off. -/
theorem convert_of_not_isUniform (session : Session σ) (provider : Provider)
    {v : Value} (hv : ¬v.IsUniform)
    (hitems : ∀ vs, v = .array vs → ∀ u ∈ vs, u.isArray = false)
    (w : World σ) :
    (∃ u w', convertToValue? session provider ⟨.pending v, v.isArray⟩
        (ValueType.of v) w = (.ok (some u), w') ∧ v.IsUnlike u) ∨
    ∃ cause w', convertToValue? session provider ⟨.pending v, v.isArray⟩
        (ValueType.of v) w = (.error cause, w') ∧
      ∃ vs target, v = .array vs ∧ ValueType.of v = .array target ∧
        ∃ u ∈ vs, MayBreakOff provider u target cause := by
  obtain ⟨first, rest, rfl⟩ : ∃ first rest, v = .array (first :: rest) := by
    cases v with
    | array vs =>
      cases vs with
      | nil => exact absurd (fun u hu => nomatch hu) hv
      | cons first rest => exact ⟨first, rest, rfl⟩
    | _ => exact absurd trivial hv
  have hfirst := hitems _ rfl first List.mem_cons_self
  have hends : (convertItems session provider
      ⟨.pending (.array (first :: rest)), true⟩ (ValueType.of first) 0
      (first :: rest)).Ends _ _ := ends_convertItems _ _ _
  have hw := hends w
  -- either an item is broken off, which `hw` tells the cause of, or all
  -- that is left has the type of the first item
  rcases hrun : (convertItems session provider
    ⟨.pending (.array (first :: rest)), true⟩ (ValueType.of first) 0
    (first :: rest)).run w with ⟨cause | _ | cs, w'⟩ <;> rw [hrun] at hw
  · have hconvert : convert session provider
        ⟨.pending (.array (first :: rest)), true⟩
        (.array (ValueType.of first)) w = (.error cause, w') := by
      rw [run_convert_array rfl rfl]
      exact Attempt.run_map_of_abort hrun _
    exact .inr ⟨cause, w', run_bind_of_error hconvert _, first :: rest,
      ValueType.of first, rfl, rfl, hw⟩
  · exact absurd hrun (run_convertItems_ne_none _ _ _ _ _)
  · obtain ⟨us, rfl, hus⟩ := Converted.exists_values hfirst hw
    exact .inl ⟨.array us, w', run_convertToValue?
      (run_convert_items rfl rfl hrun) (Converted.run_toValue?_array us w'),
      Value.isUnlike_of_not_isUniform hv hus⟩

/-- Any value that can be stored, put into an entry and asked for in its
own type. It comes back as it is exactly if it is uniform, which a single
value and an empty array are. Any other array comes back as something
unlike it, in length or in the type of an item, unless the conversion of
an item is broken off: of a timestamp without a counterpart in UTC, to a
date, or of a binary without a buffer, to a string. -/
theorem convert_to_own_type (session session' : Session σ)
    (provider : Provider) (v : Value) (e : Entry σ) (w₀ w₁ w : World σ)
    (hstored : ofValue session v w₀ = (.ok e, w₁)) :
    ((e.convertToValue? session' provider (ValueType.of v) w).1 =
        .ok (some v) ↔ v.IsUniform) ∧
    (v.isArray = false ∨ v = .array [] →
      e.convertToValue? session' provider (ValueType.of v) w =
        (.ok (some v), w)) ∧
    (¬v.IsUniform →
      (∃ u w', e.convertToValue? session' provider (ValueType.of v) w =
        (.ok (some u), w') ∧ v.IsUnlike u) ∨
      ∃ cause w', e.convertToValue? session' provider (ValueType.of v) w =
          (.error cause, w') ∧
        ∃ vs target, v = .array vs ∧ ValueType.of v = .array target ∧
          ∃ u ∈ vs, MayBreakOff provider u target cause) := by
  obtain ⟨rfl, hitems⟩ := of_ofValue hstored
  have huniform (hv : v.IsUniform) :=
    convert_of_isUniform session' provider hv hitems w
  have hother (hv : ¬v.IsUniform) :=
    convert_of_not_isUniform session' provider hv hitems w
  refine ⟨⟨fun h => ?_, fun hv => ?_⟩, fun hv => huniform ?_, hother⟩
  · by_contra hv
    rcases hother hv with ⟨u, w', hrun, hunlike⟩ | ⟨cause, w', hrun, -⟩ <;>
      rw [hrun] at h
    · cases h
      exact v.not_isUnlike_self hunlike
    · cases h
  · rw [huniform hv]
  · rcases hv with hv | rfl
    · cases v with
      | array vs => cases hv
      | _ => trivial
    · exact fun u hu => nomatch hu

/-- A text and a truth value: as texts, both are texts. -/
theorem mixed_items_become_texts :
    ∃ (e : Entry Memory.Repository) (u : Value),
      ofValue (Memory.session 0) (.array [.string "a", .bool true])
        ⟨.empty, .empty⟩ = (.ok e, ⟨.empty, .empty⟩) ∧
      e.convertToValue? (Memory.session 0) ⟨.default, none⟩ (.array .string)
        ⟨.empty, .empty⟩ = (.ok (some u), ⟨.empty, .empty⟩) ∧
      u = .array [.string "a", .string "true"] ∧
      (Value.array [.string "a", .bool true]).IsUnlike u := by
  let v : Value := .array [.string "a", .bool true]
  let e : Entry Memory.Repository := ⟨.pending v, true⟩
  let u : Value := .array [.string "a", .string "true"]
  have hstored : ofValue (Memory.session 0) v ⟨.empty, .empty⟩ =
      (.ok e, ⟨.empty, .empty⟩) := rfl
  have hrun : e.convertToValue? (Memory.session 0) ⟨.default, none⟩
      (ValueType.of v) ⟨.empty, .empty⟩ =
        (.ok (some u), ⟨.empty, .empty⟩) := rfl
  have hv : ¬v.IsUniform := fun hv =>
    nomatch hv (.string "a") (by simp) (.bool true) (by simp)
  obtain ⟨-, -, hother⟩ := convert_to_own_type (Memory.session 0)
    (Memory.session 0) ⟨.default, none⟩ v e _ _ ⟨.empty, .empty⟩ hstored
  rcases hother hv with ⟨u', w', hrun', hunlike⟩ | ⟨cause, w', hrun', -⟩
  · cases hrun.symm.trans hrun'
    exact ⟨e, u, hstored, hrun, rfl, hunlike⟩
  · cases hrun.symm.trans hrun'

/-- A text and a binary, where the options ask for a buffer of one byte
more than there can be: there is no result, and no timestamp that is to
blame. -/
theorem no_texts_without_buffer :
    ∃ (v : Value) (e : Entry Memory.Repository) (provider : Provider),
      v = .array [.string "a", .binary ⟨0, .buffered [0x68]⟩] ∧
      provider =
        ⟨MapOptions.default.withStreamBufferSize (bufferLimit + 1), none⟩ ∧
      ofValue (Memory.session 0) v ⟨.empty, .empty⟩ =
        (.ok e, ⟨.empty, .empty⟩) ∧
      ¬v.IsUniform ∧
      e.convertToValue? (Memory.session 0) provider (ValueType.of v)
        ⟨.empty, .empty⟩ = (.error .bufferOverflow, ⟨.empty, .empty⟩) ∧
      ¬((∃ u w', e.convertToValue? (Memory.session 0) provider
            (ValueType.of v) ⟨.empty, .empty⟩ = (.ok (some u), w') ∧
          v.IsUnlike u) ∨
        ∃ w', e.convertToValue? (Memory.session 0) provider
          (ValueType.of v) ⟨.empty, .empty⟩ =
            (.error .calendarOverflow, w')) := by
  let v : Value := .array [.string "a", .binary ⟨0, .buffered [0x68]⟩]
  let e : Entry Memory.Repository := ⟨.pending v, true⟩
  let provider : Provider :=
    ⟨MapOptions.default.withStreamBufferSize (bufferLimit + 1), none⟩
  have hrun : e.convertToValue? (Memory.session 0) provider (ValueType.of v)
      ⟨.empty, .empty⟩ = (.error .bufferOverflow, ⟨.empty, .empty⟩) := rfl
  refine ⟨v, e, provider, rfl, rfl, rfl, fun hv => ?_, hrun, ?_⟩
  · exact nomatch hv (.string "a") (by simp) (.binary ⟨0, .buffered [0x68]⟩)
      (by simp)
  · rintro (⟨u, w', hrun', -⟩ | ⟨w', hrun'⟩) <;>
      cases hrun.symm.trans hrun'

end Entry

end ContentProperties
