/-
Arrays are converted item by item. A property with any number of values
converts to an array as properties with one of the values each convert,
one after the other, and to anything else as the property with the first
of them; what yields nothing alone is missing in the array. The same
holds of an array that is about to be written, and of its items.

# Method

A conversion asks the entry around a value for two things only: for the
property itself, as a target of its own, and for the length of a binary,
which a property with any number of values finds by the place and one
with a single value without. Everything else depends on the value alone
(`convertScalar_congr`), so the one thing to be seen is that both find
the same length.
-/
import ContentProperties.Proofs.Conversion.OwnType
import ContentProperties.Proofs.Conversion.Steady
import ContentProperties.Proofs.Dict

namespace ContentProperties

open Memory

variable {σ : Type}

theorem StoredValue.toValue_ne_object (v : StoredValue) (o : ObjectValue) :
    v.toValue ≠ .object o := by
  cases v <;> exact Value.noConfusion

-- ============================================================= attempts

namespace Attempt

variable {α β : Type}

theorem run_result?_eq (x : Attempt σ α) :
    x.result?.run = some <$> x.run := by
  funext w
  rw [run_result?, run_map]
  rcases x.run w with ⟨_ | _, t⟩ <;> rfl

/-- After an attempt that always yields something comes the next. -/
theorem run_bind_of_run_eq {x : Attempt σ α}
    {run : ExceptT Abort (StateM (World σ)) α} (h : x.run = some <$> run)
    (f : α → Attempt σ β) : (x >>= f).run = run >>= fun a => (f a).run := by
  rw [OptionT.run_bind, Option.elimM, h, bind_map_left]
  rfl

end Attempt

namespace Entry

variable {session : Session σ} {provider : Provider} {target : ValueType}
variable {e e' whole part : Entry σ} {parts : List (Entry σ)}

/-- The place tells a property with any number of values the length. -/
theorem lengthAt_of_multiple {p : StoredProperty} (hp : p.multiple = true)
    (hlengths : ∀ v ∈ p.values, v.toValue.HasLength)
    (he : e.property? = some p.toProperty) {place : Nat} {v : StoredValue}
    (hv : p.values[place]? = some v) :
    e.lengthAt (some place) = pure v.size := by
  unfold lengthAt binaryLength
  simp only [he, StoredProperty.toProperty, hp, if_true,
    StoredProperty.lengthsOf_eq hlengths, pure_bind, List.getElem?_map, hv,
    Option.map_some]
  rfl

/-- A property with one value knows its length. -/
theorem lengthAt_of_single {q : StoredProperty} {v : StoredValue}
    (hq : q.multiple = false) (hvalues : q.values = [v])
    (hv : v.toValue.HasLength) (he : e.property? = some q.toProperty) :
    e.lengthAt none = pure v.size := by
  unfold lengthAt binaryLength
  simp only [he, StoredProperty.toProperty, hq, Bool.false_eq_true, if_false,
    StoredProperty.first, hvalues, pure_bind, StoredValue.length_eq hv]
  rfl

-- ================================================== what a value depends on

theorem convertPlain_eq (htarget : target ≠ .property) (v : Value) :
    convertPlain session e v target = convertPlain session e' v target := by
  cases target with
  | property => exact absurd rfl htarget
  | _ => rfl

/-- A value converts in the same way wherever it is kept, if as a binary
it is found to have the same length. -/
theorem convertScalar_congr (htarget : target ≠ .property) {v : Value}
    {place place' : Option Nat}
    (hlength : ∀ b, v = .binary b → e.lengthAt place = e'.lengthAt place') :
    convertScalar session provider e place v target =
      convertScalar session provider e' place' v target := by
  have hplain : ∀ u, convertPlain session e u target =
      convertPlain session e' u target := convertPlain_eq htarget
  cases v with
  | binary b =>
    by_cases hnumeric : target.isNumeric = true
    · rw [convertScalar_of_isNumeric hnumeric,
        convertScalar_of_isNumeric hnumeric, hlength b rfl]
      simp only [hplain]
    · simp only [convertScalar, convertBinary, if_neg hnumeric, hplain]
  | _ => simp only [convertScalar, hplain]

-- ================================================================ parts

/-- The entry holds this one value. -/
structure HoldsOne (e : Entry σ) (v : Value) : Prop where
  single : e.isArray = false
  value : ∀ w, e.value w = (.ok v, w)

/-- The entry holds an array of these values. -/
structure HoldsAll (e : Entry σ) (vs : List Value) : Prop where
  multiple : e.isArray = true
  value : ∀ w, e.value w = (.ok (.array vs), w)

/-- A value that is about to be written is alone in its entry. -/
theorem holdsOne_pending (v : Value) :
    (⟨.pending v, false⟩ : Entry σ).HoldsOne v :=
  ⟨rfl, fun _ => rfl⟩

theorem HoldsOne.convert_eq {v : Value} (h : part.HoldsOne v)
    (harray : target.isArray = false) :
    part.convert session provider target =
      (convertScalar session provider part none v target).run :=
  funext fun w => run_convert_single h.single (h.value w) harray

/-- To an array, one value converts to its result, or to none. -/
theorem HoldsOne.convert_array {v : Value} (h : part.HoldsOne v)
    (harray : target.isArray = false) :
    part.convert session provider (.array target) =
      (fun c? => some (.array c?.toList)) <$>
        part.convert session provider target := by
  rw [h.convert_eq harray]
  funext w
  rw [run_convert_of_value (h.value w)]
  unfold attemptOf
  simp only [h.single, Bool.false_eq_true, if_false]
  rw [Attempt.run_bind_of_run_eq (Attempt.run_result?_eq _)]
  rfl

/-- Converts entries one after the other, without those that yield
nothing. -/
def convertEach (session : Session σ) (provider : Provider)
    (target : ValueType) :
    List (Entry σ) → ExceptT Abort (StateM (World σ)) (List (Converted σ))
  | [] => pure []
  | part :: rest => do
      let c? ← part.convert session provider target
      let cs ← convertEach session provider target rest
      pure (c?.toList ++ cs)

/-- The entry converts as its parts do. -/
structure SplitsInto (session : Session σ) (provider : Provider)
    (target : ValueType) (whole : Entry σ) (parts : List (Entry σ)) :
    Prop where
  /-- To an array, item by item. -/
  array : whole.convert session provider (.array target) =
    (fun cs => some (.array cs)) <$>
      convertEach session provider target parts
  /-- To anything else, as the first part. -/
  first : whole.convert session provider target =
    match parts with
    | [] => pure none
    | part :: _ => part.convert session provider target
  /-- Each part is an array of at most one. -/
  single : ∀ part ∈ parts, part.convert session provider (.array target) =
    (fun c? => some (.array c?.toList)) <$>
      part.convert session provider target

/-- The entry finds for the value at each place what the part at that
place finds. -/
def FindsAs (session : Session σ) (provider : Provider)
    (target : ValueType) (whole : Entry σ) (place : Nat)
    (parts : List (Entry σ)) (vs : List Value) : Prop :=
  ∀ k part v, parts[k]? = some part → vs[k]? = some v →
    convertScalar session provider whole (some (place + k)) v target =
      convertScalar session provider part none v target

theorem run_convertItems_eq (harray : target.isArray = false)
    {vs : List Value} (hparts : List.Forall₂ HoldsOne parts vs) {place : Nat}
    (hsame : FindsAs session provider target whole place parts vs) :
    (convertItems session provider whole target place vs).run =
      some <$> convertEach session provider target parts := by
  induction hparts generalizing place with
  | nil => rfl
  | @cons part v parts vs hpart hrest ih =>
    have hfirst : convertScalar session provider whole (some place) v target =
        convertScalar session provider part none v target :=
      hsame 0 part v rfl rfl
    have hlater : FindsAs session provider target whole (place + 1) parts
        vs := by
      intro k u x hu hx
      have h := hsame (k + 1) u x hu hx
      rwa [show place + (k + 1) = place + 1 + k by omega] at h
    unfold convertItems convertEach
    rw [hpart.convert_eq harray, hfirst,
      Attempt.run_bind_of_run_eq (Attempt.run_result?_eq _)]
    simp only [Attempt.run_bind_of_run_eq (ih hlater), map_bind]
    rfl

/-- An entry with any number of values that finds for each what a part
finds converts as the parts do. -/
theorem splitsInto_of_findsAs (harray : target.isArray = false)
    {vs : List Value} (hwhole : whole.HoldsAll vs)
    (hparts : List.Forall₂ HoldsOne parts vs)
    (hsame : FindsAs session provider target whole 0 parts vs) :
    whole.SplitsInto session provider target parts where
  array := by
    funext w
    rw [run_convert_array hwhole.multiple (hwhole.value w), OptionT.run_map,
      run_convertItems_eq harray hparts hsame]
    simp only [Functor.map_map, Option.map_some]
  first := by
    funext w
    rw [run_convert_of_value (hwhole.value w)]
    unfold attemptOf
    simp only [hwhole.multiple, if_true]
    cases hparts with
    | nil =>
      split
      · cases harray
      · next heq => cases heq
      · rfl
    | @cons part v parts vs hpart hrest =>
      split
      · cases harray
      · next heq =>
        cases heq
        rw [hsame 0 part v rfl rfl, ← hpart.convert_eq harray]
      · next heq => cases heq
  single := by
    intro part hpart
    obtain ⟨v, -, hv⟩ := exists_of_forall₂ hparts hpart
    exact hv.convert_array harray

-- =========================================================== properties

/-- The entry of a property with any number of values. -/
theorem exists_whole {p : StoredProperty} (hp : p.multiple = true) :
    ∃ whole : Entry σ, (∀ w, ofProperty p.toProperty w = (.ok whole, w)) ∧
      whole.HoldsAll (p.values.map StoredValue.toValue) ∧
      whole.property? = some p.toProperty := by
  have hvalue : ∀ w : World σ, p.toProperty.value w =
      (.ok (.array (p.values.map StoredValue.toValue)), w) := by
    intro w
    simp [StoredProperty.toProperty, hp]
  obtain ⟨whole, hrun, harray, hholds, hproperty⟩ := exists_ofProperty hvalue
  exact ⟨whole, hrun, ⟨harray.trans hp, hholds⟩, hproperty⟩

/-- The entry of a property with one value. -/
theorem exists_part {q : StoredProperty} {v : StoredValue}
    (hq : q.multiple = false) (hvalues : q.values = [v])
    (hv : v.toValue.HasLength) :
    ∃ part : Entry σ, (∀ w, ofProperty q.toProperty w = (.ok part, w)) ∧
      part.HoldsOne v.toValue ∧ part.lengthAt none = pure v.size := by
  have hvalue : ∀ w : World σ,
      q.toProperty.value w = (.ok v.toValue, w) := by
    intro w
    simp [StoredProperty.toProperty, hq, StoredProperty.first, hvalues]
  obtain ⟨part, hrun, harray, hholds, hproperty⟩ := exists_ofProperty hvalue
  exact ⟨part, hrun, ⟨harray.trans hq, hholds⟩,
    lengthAt_of_single hq hvalues hv hproperty⟩

/-- Of a value that is kept alone, every conversion always ends in the same
way. -/
theorem HoldsOne.steady {v : Value} (h : part.HoldsOne v)
    (hv : v.HasLength) (hobject : target = .stored → ∀ o, v ≠ .object o)
    (hlength : Steady (part.lengthAt none).run)
    (harray : target.isArray = false) :
    Steady (part.convert session provider target) := by
  rw [h.convert_eq harray]
  exact steady_convertScalar hv hobject hlength

theorem exists_parts {qs : List StoredProperty} {vs : List StoredValue}
    (hqs : List.Forall₂ (fun q v => q.multiple = false ∧ q.values = [v])
      qs vs) (hvs : ∀ v ∈ vs, v.toValue.HasLength) :
    ∃ parts : List (Entry σ),
      List.Forall₂ (fun q part =>
        ∀ w, ofProperty q.toProperty w = (.ok part, w)) qs parts ∧
      List.Forall₂ (fun part v => part.HoldsOne (StoredValue.toValue v) ∧
        part.lengthAt none = pure v.size) parts vs := by
  induction hqs with
  | nil => exact ⟨[], .nil, .nil⟩
  | @cons q v qs vs hq hrest ih =>
    obtain ⟨part, hrun, hpart⟩ :=
      exists_part hq.1 hq.2 (hvs v List.mem_cons_self)
    obtain ⟨parts, hruns, hparts⟩ :=
      ih fun u hu => hvs u (List.mem_cons_of_mem _ hu)
    exact ⟨part :: parts, .cons hrun hruns, .cons hpart hparts⟩

/-- The values of a property are found to have the lengths that they have
alone. -/
theorem findsAs_of_properties (htarget : target ≠ .property)
    {p : StoredProperty} (hp : p.multiple = true)
    (hlengths : ∀ v ∈ p.values, v.toValue.HasLength)
    (hwhole : whole.property? = some p.toProperty)
    (hparts : List.Forall₂ (fun part v =>
      part.HoldsOne (StoredValue.toValue v) ∧
        part.lengthAt none = pure v.size) parts p.values) :
    FindsAs session provider target whole 0 parts
      (p.values.map StoredValue.toValue) := by
  intro k part u hpart hu
  rw [List.getElem?_map, Option.map_eq_some_iff] at hu
  obtain ⟨v, hv, rfl⟩ := hu
  obtain ⟨hk, rfl⟩ := List.getElem?_eq_some_iff.1 hpart
  obtain ⟨hk', rfl⟩ := List.getElem?_eq_some_iff.1 hv
  obtain ⟨-, hlength⟩ := (List.forall₂_iff_get.1 hparts).2 k hk hk'
  refine convertScalar_congr htarget fun _ _ => ?_
  rw [Nat.zero_add, lengthAt_of_multiple hp hlengths hwhole hv]
  exact hlength.symm

-- ======================================================= written values

/-- Neither an array that is written nor its items know a length. -/
theorem splitsInto_of_pending (harray : target.isArray = false)
    (htarget : target ≠ .property) (vs : List Value) :
    SplitsInto (σ := σ) session provider target ⟨.pending (.array vs), true⟩
      (vs.map fun v => ⟨.pending v, false⟩) := by
  have hwhole : HoldsAll (⟨.pending (.array vs), true⟩ : Entry σ) vs :=
    ⟨rfl, fun _ => rfl⟩
  refine splitsInto_of_findsAs harray hwhole ?_ ?_
  · rw [List.forall₂_map_left_iff]
    exact List.forall₂_same.2 fun v _ => holdsOne_pending v
  · intro k part v hpart hv
    rw [List.getElem?_map, hv] at hpart
    cases hpart
    exact convertScalar_congr htarget fun _ _ => rfl

/-- The entries of values that are written are what the values say. -/
theorem parts_of_ofValue {vs : List Value}
    (hvs : ∀ v ∈ vs, v.isArray = false)
    (hparts : List.Forall₂ (fun v part => ∃ w w',
      ofValue session v w = (.ok part, w')) vs parts) :
    parts = vs.map fun v => ⟨.pending v, false⟩ := by
  induction hparts with
  | nil => rfl
  | @cons v part vs parts hpart hrest ih =>
    obtain ⟨w, w', hrun⟩ := hpart
    obtain ⟨rfl, -⟩ := of_ofValue hrun
    rw [ih fun u hu => hvs u (List.mem_cons_of_mem _ hu), List.map_cons,
      hvs v List.mem_cons_self]

/-- Item by item, to any target that is neither an array nor the property
itself. A property with any number of values, of known lengths, converts
as do properties with one of the values each, whatever names and types
these have, and each of those conversions always ends in the same way. An
array that can be stored converts as do its items, each in an entry of its
own, and these conversions too always end in the same way if the lengths
are known and no object is turned into its stored form. -/
theorem convert_item_by_item (session : Session σ) (provider : Provider)
    (target : ValueType) (harray : target.isArray = false)
    (htarget : target ≠ .property) :
    (∀ (p : StoredProperty) (qs : List StoredProperty), p.multiple = true →
      (∀ v ∈ p.values, v.toValue.HasLength) →
      List.Forall₂ (fun q v => q.multiple = false ∧ q.values = [v]) qs
        p.values →
      ∃ (whole : Entry σ) (parts : List (Entry σ)),
        (∀ w, ofProperty p.toProperty w = (.ok whole, w)) ∧
        List.Forall₂ (fun q part =>
          ∀ w, ofProperty q.toProperty w = (.ok part, w)) qs parts ∧
        whole.SplitsInto session provider target parts ∧
        ∀ part ∈ parts, Steady (part.convert session provider target)) ∧
    ∀ (vs : List Value) (whole : Entry σ) (parts : List (Entry σ))
      (w w' : World σ),
      ofValue session (.array vs) w = (.ok whole, w') →
      List.Forall₂ (fun v part => ∃ w w',
        ofValue session v w = (.ok part, w')) vs parts →
      whole.SplitsInto session provider target parts ∧
        ((∀ v ∈ vs, v.HasLength) →
          (target = .stored → ∀ v ∈ vs, ∀ o, v ≠ .object o) →
          ∀ part ∈ parts, Steady (part.convert session provider target)) := by
  refine ⟨fun p qs hp hlengths hqs => ?_,
    fun vs whole parts w w' hwhole hparts => ?_⟩
  · obtain ⟨whole, hrun, hholds, hproperty⟩ := exists_whole (σ := σ) hp
    obtain ⟨parts, hruns, hparts⟩ := exists_parts (σ := σ) hqs hlengths
    have hone : List.Forall₂ HoldsOne parts
        (p.values.map StoredValue.toValue) := by
      rw [List.forall₂_map_right_iff]
      exact hparts.imp fun _ _ h => h.1
    refine ⟨whole, parts, hrun, hruns, splitsInto_of_findsAs harray hholds
      hone (findsAs_of_properties htarget hp hlengths hproperty hparts), ?_⟩
    intro part hpart
    obtain ⟨v, hv, hvalue, hlength⟩ := exists_of_forall₂ hparts hpart
    exact hvalue.steady (hlengths v hv) (fun _ => v.toValue_ne_object)
      (hlength ▸ Attempt.steady_some _) harray
  · obtain ⟨rfl, hitems⟩ := of_ofValue hwhole
    rw [parts_of_ofValue (hitems vs rfl) hparts]
    refine ⟨splitsInto_of_pending harray htarget vs,
      fun hlengths hobjects part hpart => ?_⟩
    obtain ⟨v, hv, rfl⟩ := List.mem_map.1 hpart
    exact (holdsOne_pending v).steady (hlengths v hv)
      (fun h => hobjects h v hv) Attempt.steady_nothing harray

/-- Three bytes, a word and no bytes, as numbers: the word is missing, and
the last length is found at its place. As values to be written they have
no lengths, and only a text that is a number is left. -/
theorem convert_of_lengths_and_words :
    ∃ whole written : Entry Repository,
      (∀ w, ofProperty (StoredProperty.multi "a" .binary
          [.binary ⟨0, .buffered [1, 2, 3]⟩, .string "x",
            .binary ⟨1, .buffered []⟩]).toProperty w = (.ok whole, w)) ∧
      ofValue (Memory.session 0) (.array
          [.binary ⟨0, .buffered [1, 2, 3]⟩, .string "7"])
        ⟨.empty, .empty⟩ = (.ok written, ⟨.empty, .empty⟩) ∧
      whole.convert (Memory.session 0) ⟨.default, none⟩ (.array .long)
          ⟨.empty, .empty⟩ =
        (.ok (some (.array [.value (.long 3), .value (.long 0)])),
          ⟨.empty, .empty⟩) ∧
      written.convert (Memory.session 0) ⟨.default, none⟩ (.array .long)
          ⟨.empty, .empty⟩ =
        (.ok (some (.array [.value (.long 7)])), ⟨.empty, .empty⟩) := by
  let p := StoredProperty.multi "a" .binary
    [.binary ⟨0, .buffered [1, 2, 3]⟩, .string "x", .binary ⟨1, .buffered []⟩]
  let qs := [StoredProperty.single "b" .binary
      (.binary ⟨0, .buffered [1, 2, 3]⟩),
    .single "c" .string (.string "x"),
    .single "d" .binary (.binary ⟨1, .buffered []⟩)]
  have hlengths : ∀ v ∈ p.values, v.toValue.HasLength := by
    simp [p, StoredProperty.multi, StoredValue.toValue, Value.HasLength,
      Binary.length?, Source.length?]
  have hqs : List.Forall₂ (fun q v => q.multiple = false ∧ q.values = [v]) qs
      p.values :=
    .cons ⟨rfl, rfl⟩ (.cons ⟨rfl, rfl⟩ (.cons ⟨rfl, rfl⟩ .nil))
  obtain ⟨hread, hwritten⟩ := convert_item_by_item (Memory.session 0)
    ⟨.default, none⟩ .long rfl (by decide)
  obtain ⟨whole, parts, hwhole, hparts, hsplit, -⟩ :=
    hread p qs rfl hlengths hqs
  let w : World Repository := ⟨.empty, .empty⟩
  let vs : List Value := [.binary ⟨0, .buffered [1, 2, 3]⟩, .string "7"]
  have hpending := hwritten vs ⟨.pending (.array vs), true⟩
    (vs.map fun v => ⟨.pending v, false⟩) w w rfl
    (.cons ⟨w, w, rfl⟩ (.cons ⟨w, w, rfl⟩ .nil))
  refine ⟨whole, _, hwhole, rfl, ?_, ?_⟩
  · rw [hsplit.array]
    simp only [qs, List.forall₂_cons_left_iff,
      List.forall₂_nil_left_iff] at hparts
    obtain ⟨_, _, hfirst, ⟨_, _, hsecond, ⟨_, _, hthird, rfl, rfl⟩, rfl⟩,
      rfl⟩ := hparts
    cases hfirst w
    cases hsecond w
    cases hthird w
    rfl
  · exact (congrFun hpending.1.array _).trans rfl

end Entry

end ContentProperties
