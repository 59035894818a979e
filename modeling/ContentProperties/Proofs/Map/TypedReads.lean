/-
Typed reads. A caller asks for a value in a type of his own and never
sees the conversion behind it. Between the two stand three case analyses
that do not mention one another: when a value has a type, what a
conversion to the type yields, and what a type of the caller picks out
of that. They agree: with one exception, the types pick something out of
everything that a conversion to them yields, and lists one item for each
(`Convertible.IsTotal`).

# Method

What a conversion yields has the type that was asked for
(`Converted.Fits`). A type of the caller names one value type, and the
results that fit it have one shape, so each type is a single inversion;
lists are an induction on the type of their items. The exception is an
object, which asks for anything with a serialized form: a text has one,
and is no object.
-/
import ContentProperties.Map.Typed
import ContentProperties.Proofs.Conversion.Fitting
import ContentProperties.Proofs.Map.Reading

namespace ContentProperties

open Time

variable {σ : Type}

-- ============================================================ results

namespace Converted

/-- The results that an array of results, or an array that is one value,
is made of. -/
def parts : Converted σ → List (Converted σ)
  | .array cs => cs
  | .value (.array vs) => vs.map .value
  | _ => []

/-- The parts of a result that fits an array fit the type of its
items. -/
theorem Fits.parts {item : ValueType} {c : Converted σ}
    (h : c.Fits (.array item)) : ∀ part ∈ c.parts, Fits item part := by
  cases h with
  | array hcs => exact hcs
  | @value _ v hv =>
    intro part hpart
    cases v with
    | array vs =>
      obtain ⟨v, hmem, rfl⟩ := List.mem_map.1 hpart
      exact .value (List.all_eq_true.1 hv v hmem)
    | _ => cases hv

end Converted

-- ============================================================== types

namespace Convertible

variable {α : Type}

/-- What the type makes of the result, in any world. -/
def Picks [Convertible σ α] (c : Converted σ) (a : α) : Prop :=
  ∀ w, ofConverted? c w = (some a, w)

/-- The types that values are read into, without that of objects, and
the lists of them. -/
inductive IsTotal : (α : Type) → [Convertible σ α] → Prop where
  | string : IsTotal String
  | byte : IsTotal Int8
  | short : IsTotal Int16
  | int : IsTotal Int32
  | long : IsTotal Int64
  | float : IsTotal Float32
  | double : IsTotal Float
  | decimal : IsTotal Decimal
  | bool : IsTotal Bool
  | char : IsTotal Char
  | date : IsTotal Instant
  | calendar : IsTotal Timestamp
  | zoned : IsTotal Zoned
  | binary : IsTotal Binary
  | stream : IsTotal ObjectStream
  | stored : IsTotal StoredValue
  | property : IsTotal (Property σ)
  | value : IsTotal Value
  | list {α : Type} [Convertible σ α] (h : IsTotal α) : IsTotal (List α)

/-- What is picked from each result is kept, in order. -/
theorem run_ofEach [Convertible σ α] {cs : List (Converted σ)} {as : List α}
    (h : List.Forall₂ Picks cs as) (w : World σ) : ofEach cs w = (as, w) := by
  induction h with
  | nil => rfl
  | @cons c a cs as ha _ ih =>
    show ((ofConverted? c w).1.toList ++
        (ofEach cs (ofConverted? c w).2).1,
      (ofEach cs (ofConverted? c w).2).2) = (a :: as, w)
    rw [ha w, ih]
    rfl

/-- Nothing is dropped from results that something is picked from each. -/
theorem exists_ofEach [Convertible σ α] {cs : List (Converted σ)}
    (h : ∀ c ∈ cs, ∃ a : α, Picks c a) :
    ∃ as : List α, List.Forall₂ Picks cs as := by
  induction cs with
  | nil => exact ⟨[], .nil⟩
  | cons c rest ih =>
    obtain ⟨a, ha⟩ := h c List.mem_cons_self
    obtain ⟨as, hall⟩ := ih fun c hc => h c (List.mem_cons_of_mem _ hc)
    exact ⟨a :: as, .cons ha hall⟩

/-- A list picks what is picked from the parts of a result. -/
theorem picks_list [Convertible σ α] {c : Converted σ}
    (hc : c.Fits (valueType σ (List α))) {as : List α}
    (h : List.Forall₂ Picks c.parts as) : Picks c as := by
  intro w
  have heach : (some (ofEach (α := α) c.parts w).1,
      (ofEach (α := α) c.parts w).2) = (some as, w) := by
    rw [run_ofEach h w]
  cases hc with
  | array _ => exact heach
  | @value _ v hv =>
    cases v with
    | array vs => exact heach
    | _ => cases hv

/-- A list picks one item for each part of a result, in order. -/
theorem exists_picks_list [Convertible σ α] {c : Converted σ}
    (hc : c.Fits (valueType σ (List α)))
    (h : ∀ part ∈ c.parts, ∃ a : α, Picks part a) :
    ∃ as : List α, Picks c as ∧ List.Forall₂ Picks c.parts as := by
  obtain ⟨as, hall⟩ := exists_ofEach h
  exact ⟨as, picks_list hc hall, hall⟩

/-- The types that are total pick something out of every result that
fits the type they ask for. -/
theorem IsTotal.exists_picks [Convertible σ α] (h : IsTotal (σ := σ) α)
    {c : Converted σ} (hc : c.Fits (valueType σ α)) :
    ∃ a : α, Picks c a := by
  induction h generalizing c with
  | list _ ih =>
    obtain ⟨as, has, -⟩ :=
      exists_picks_list hc fun part hpart => ih (hc.parts part hpart)
    exact ⟨as, has⟩
  | value =>
    cases hc with
    | @value _ v _ => exact ⟨v, fun _ => rfl⟩
  | stream | stored | property =>
    cases hc with
    | @value _ v hv => cases v <;> cases hv
    | _ => exact ⟨_, fun _ => rfl⟩
  | _ =>
    -- a kind of value: of all values only that kind has the type
    cases hc with
    | @value _ v hv => cases v <;> first | exact ⟨_, fun _ => rfl⟩ | cases hv

/-- Objects are the exception: a text has a serialized form, and is no
object. -/
example (w : World σ) :
    (valueType σ ObjectValue).isInstance (.string "x") = true ∧
      ofConverted? (α := ObjectValue) (.value (.string "x")) w = (none, w) :=
  ⟨rfl, rfl⟩

end Convertible

-- ============================================================== reads

namespace PropertyMap

variable {m : PropertyMap σ} {key : String} {s t : MapState σ}

/-- What a map converts a value to has the type that was asked for. -/
theorem fits_of_getAs? {target : ValueType} {c : Converted σ}
    (h : m.getAs? key target s = (.ok (some c), t)) : c.Fits target := by
  unfold getAs? at h
  split at h
  · next hunknown =>
    obtain ⟨v?, u, -, hv⟩ := ok_of_run_bind h
    cases v? with
    | none => cases hv
    | some v =>
      cases hv
      rw [hunknown]
      exact .value (by cases v <;> rfl)
  · obtain ⟨slot?, u, -, hslot⟩ := ok_of_run_bind h
    cases slot? with
    | none => cases hslot
    | some slot =>
      dsimp only at hslot
      rw [MapM.run_ofConversion] at hslot
      rcases hc : slot.entry.convert m.node.session m.provider target
        u.world with ⟨cause | c?, w⟩ <;> rw [hc] at hslot
      · cases hslot
      · cases hslot
        exact Entry.fits_of_convert hc

/-- Conversions are sound for the types that are asked for, and typed
reads lose nothing of them. Whatever an entry converts to fits the
target. A type of the caller, unless it is that of objects, is found
under a key just when the conversion to the type it asks for yields
something there. And from a result that fits an array a list of the type
has one item for each part of the result, in order; a value is taken as
it is. -/
theorem getTyped?_loses_nothing (m : PropertyMap σ) :
    (∀ (e : Entry σ) (session : Session σ) (provider : Provider)
        (target : ValueType) (c : Converted σ) (w w' : World σ),
      e.convert session provider target w = (.ok (some c), w') →
        c.Fits target) ∧
    (∀ (α : Type) [Convertible σ α], Convertible.IsTotal (σ := σ) α →
      (∀ (key : String) (s t : MapState σ),
        (∃ a, m.getTyped? α key s = (.ok (some a), t)) ↔
          ∃ c, m.getAs? key (Convertible.valueType σ α) s =
            (.ok (some c), t)) ∧
      ∀ c : Converted σ, c.Fits (Convertible.valueType σ (List α)) →
        ∃ as : List α, Convertible.Picks c as ∧
          List.Forall₂ Convertible.Picks c.parts as) ∧
    ∀ c : Converted σ, c.Fits (Convertible.valueType σ Value) →
      ∃ v, c = .value v ∧ Convertible.Picks c v := by
  refine ⟨fun e session provider target c w w' => Entry.fits_of_convert,
    fun α _ hα => ⟨fun key s t => ⟨?_, ?_⟩, fun c hc => ?_⟩, fun c hc => ?_⟩
  · rintro ⟨a, ha⟩
    obtain ⟨c?, u, hc, hpick⟩ := ok_of_run_bind ha
    cases c? with
    | none => cases hpick
    | some c =>
      obtain ⟨b, hb⟩ := hα.exists_picks (fits_of_getAs? hc)
      replace hpick : MapM.ofWorld (Convertible.ofConverted? c) u =
        (.ok (some a), t) := hpick
      rw [MapM.run_ofWorld, hb u.world] at hpick
      cases hpick
      exact ⟨c, hc⟩
  · rintro ⟨c, hc⟩
    obtain ⟨a, ha⟩ := hα.exists_picks (fits_of_getAs? hc)
    refine ⟨a, ?_⟩
    unfold getTyped?
    rw [run_bind_of_ok hc]
    show MapM.ofWorld _ t = _
    rw [MapM.run_ofWorld, ha t.world]
  · exact Convertible.exists_picks_list hc fun part hpart =>
      hα.exists_picks (hc.parts part hpart)
  · cases hc with
    | @value _ v _ => exact ⟨v, rfl, fun _ => rfl⟩

/-- A number, a text that is none and a truth value under one key: read
as integers, they are a list of the two that convert. -/
theorem getTyped?_of_mixed_items :
    ∃ (s : MapState Memory.Repository) (c : Converted Memory.Repository),
      (s.cache.slots.get? "a").map (·.value) =
        some (.array [.long 1, .string "x", .bool true]) ∧
      Memory.Site.sample.map.getAs? "a" (.array .long) s =
        (.ok (some c), s) ∧ c.Fits (.array .long) ∧
      (∃ as, Memory.Site.sample.map.getTyped? (List Int64) "a" s =
        (.ok (some as), s)) ∧
      ∃ as : List Int64, Convertible.Picks c as ∧
        List.Forall₂ Convertible.Picks c.parts as := by
  let v : Value := .array [.long 1, .string "x", .bool true]
  let e : Entry Memory.Repository := ⟨.pending v, true⟩
  let s : MapState Memory.Repository :=
    { Memory.Site.sampleState with cache := ⟨Dict.empty.set "a" ⟨e, v⟩, true⟩ }
  let c : Converted Memory.Repository :=
    .array [.value (.long 1), .value (.long 1)]
  have hconvert : e.convert (Memory.session 0) ⟨.default, none⟩
      (.array .long) s.world = (.ok (some c), s.world) := rfl
  have hget : Memory.Site.sample.map.getAs? "a" (.array .long) s =
      (.ok (some c), s) := rfl
  obtain ⟨hfits, htyped, -⟩ :=
    getTyped?_loses_nothing Memory.Site.sample.map
  have hc := hfits _ _ _ _ _ _ _ hconvert
  exact ⟨s, c, rfl, hget, hc,
    ((htyped (List Int64) (.list .long)).1 "a" s s).2 ⟨c, hget⟩,
    (htyped Int64 .long).2 c hc⟩

end PropertyMap

end ContentProperties
