/-
Defaults with a type and defaults as values. A caller who asks for a value
with a default may give the default in a type of his own, which says what
to convert to, or as a value, whose kind says it. The two ways share
nothing but the lookup: the one picks its answer out of what the
conversion yields, the other collapses that to a value. They are one call
nevertheless, in any state of any map, down to the failures
(`getTypedOr_eq_getOr?`).

# Method

A type of the caller stands for a kind of value (`Convertible.IsKind`).
Whatever fits the type that it asks for is a value of the kind, so both
ways find the same thing in it (`Convertible.Represents`). This carries
over to lists, for which the default must have an item that shows its
type.
-/
import ContentProperties.Proofs.Map.TypedReads

namespace ContentProperties

open Time

variable {σ : Type}

-- ================================================================ types

namespace Convertible

variable {α : Type}

/-- The types that stand for one kind of value each, with the kind. -/
inductive IsKind : (α : Type) → [Convertible σ α] → (α → Value) → Prop where
  | string : IsKind String .string
  | byte : IsKind Int8 .byte
  | short : IsKind Int16 .short
  | int : IsKind Int32 .int
  | long : IsKind Int64 .long
  | float : IsKind Float32 .float
  | double : IsKind Float .double
  | decimal : IsKind Decimal .decimal
  | bool : IsKind Bool .bool
  | char : IsKind Char .char
  | date : IsKind Instant .date
  | calendar : IsKind Timestamp .calendar
  | zoned : IsKind Zoned fun z => .zoned z.timestamp
  | binary : IsKind Binary .binary

variable [Convertible σ α] {kind : α → Value}

/-- A value of the kind asks for the type. -/
theorem IsKind.of_eq (h : IsKind (σ := σ) α kind) (a : α) :
    ValueType.of (kind a) = valueType σ α := by
  cases h <;> rfl

/-- A value of the kind is picked. -/
theorem IsKind.picks (h : IsKind (σ := σ) α kind) (a : α) :
    Picks (σ := σ) (.value (kind a)) a := by
  cases h <;> exact fun _ => rfl

/-- What fits the type is a value of the kind. -/
theorem IsKind.exists_eq (h : IsKind (σ := σ) α kind) {c : Converted σ}
    (hc : c.Fits (valueType σ α)) : ∃ a, c = .value (kind a) := by
  cases h <;> cases hc with
  | @value _ v hv => cases v <;> first | exact ⟨_, rfl⟩ | cases hv

theorem IsKind.exists_map_eq (h : IsKind (σ := σ) α kind)
    {cs : List (Converted σ)} (hcs : ∀ c ∈ cs, c.Fits (valueType σ α)) :
    ∃ as : List α, cs = as.map fun a => .value (kind a) := by
  induction cs with
  | nil => exact ⟨[], rfl⟩
  | cons c rest ih =>
    obtain ⟨a, rfl⟩ := h.exists_eq (hcs c List.mem_cons_self)
    obtain ⟨as, rfl⟩ := ih fun c hc => hcs c (List.mem_cons_of_mem _ hc)
    exact ⟨a :: as, rfl⟩

/-- Something of the type that the result is, and the value that the
result is, are the same. -/
structure Represents (kind : α → Value) (c : Converted σ) (a : α) : Prop where
  picks : Picks c a
  value : ∀ w, c.toValue? w = (some (kind a), w)

theorem IsKind.exists_represents (h : IsKind (σ := σ) α kind)
    {c : Converted σ} (hc : c.Fits (valueType σ α)) :
    ∃ a, Represents kind c a := by
  obtain ⟨a, rfl⟩ := h.exists_eq hc
  exact ⟨a, h.picks a, fun _ => rfl⟩

/-- The kind of value that a list stands for. -/
def arrayOf (kind : α → Value) (as : List α) : Value := .array (as.map kind)

/-- A list with an item asks for the type of the list. -/
theorem IsKind.of_arrayOf (h : IsKind (σ := σ) α kind) {as : List α}
    (has : as ≠ []) : ValueType.of (arrayOf kind as) =
      valueType σ (List α) := by
  obtain ⟨a, rest, rfl⟩ := List.exists_cons_of_ne_nil has
  exact congrArg ValueType.array (h.of_eq a)

/-- What fits an array of the type is a list of values of the kind. -/
theorem IsKind.exists_represents_list (h : IsKind (σ := σ) α kind)
    {c : Converted σ} (hc : c.Fits (valueType σ (List α))) :
    ∃ as, Represents (arrayOf kind) c as := by
  obtain ⟨as, has⟩ := h.exists_map_eq hc.parts
  have hpicks : List.Forall₂ (Picks (σ := σ)) c.parts as := by
    rw [has, List.forall₂_map_left_iff]
    exact List.forall₂_same.2 fun a _ => h.picks a
  refine ⟨as, picks_list hc hpicks, fun w => ?_⟩
  have hmap : as.map (fun a => Converted.value (σ := σ) (kind a)) =
      (as.map kind).map .value := by
    rw [List.map_map]
    rfl
  rw [hmap] at has
  cases hc with
  | @array _ cs _ =>
    rw [show cs = _ from has]
    exact Converted.run_toValue?_array (as.map kind) w
  | @value _ v hv =>
    cases v with
    | array vs =>
      have hvs : vs = as.map kind :=
        List.map_injective_iff.2 (fun _ _ h => Converted.value.inj h) has
      rw [hvs]
      rfl
    | _ => cases hv

end Convertible

-- ================================================================ reads

namespace PropertyMap

open Convertible

variable {m : PropertyMap σ} {α : Type} [Convertible σ α]

/-- A default of a type that represents whatever fits it is the same as
its value. -/
theorem getTypedOr_eq {kind : α → Value} {default : α}
    (hof : ValueType.of (kind default) = valueType σ α)
    (hrepresents : ∀ c : Converted σ, c.Fits (valueType σ α) →
      ∃ a, Represents kind c a) (key : String) :
    (fun a => some (kind a)) <$> m.getTypedOr key default =
      m.getOr? key (some (kind default)) := by
  funext s
  unfold getTypedOr getTyped? getOr?
  dsimp only
  rw [hof, run_map]
  rcases hget : m.getAs? key (valueType σ α) s with ⟨e | _ | c, t⟩
  · rw [run_bind_of_error (run_bind_of_error hget _), run_bind_of_error hget]
  · rw [run_bind_of_ok (run_bind_of_ok hget _), run_bind_of_ok hget]
    rfl
  · obtain ⟨a, ha⟩ := hrepresents c (fits_of_getAs? hget)
    have hpick : MapM.ofWorld (ofConverted? (α := α) c) t =
        (.ok (some a), t) := by
      rw [MapM.run_ofWorld, ha.picks]
    have hvalue : MapM.ofWorld c.toValue? t =
        (.ok (some (kind a)), t) := by
      rw [MapM.run_ofWorld, ha.value]
    rw [run_bind_of_ok ((run_bind_of_ok hget _).trans hpick),
      run_bind_of_ok hget]
    dsimp only
    rw [run_bind_of_ok hvalue]
    rfl

/-- A default given in a type of the caller and the same default given as
a value are one call, for every type that stands for a kind of value, and
for lists of it that have an item: from any state it has the same outcome,
a value or a failure, and leaves the same state. -/
theorem getTypedOr_eq_getOr? (m : PropertyMap σ) (key : String) (α : Type)
    [Convertible σ α] (kind : α → Value)
    (hkind : IsKind (σ := σ) α kind) :
    (∀ default : α, (fun a => some (kind a)) <$> m.getTypedOr key default =
      m.getOr? key (some (kind default))) ∧
    ∀ default : List α, default ≠ [] →
      (fun as => some (arrayOf kind as)) <$> m.getTypedOr key default =
        m.getOr? key (some (arrayOf kind default)) :=
  ⟨fun _ => getTypedOr_eq (hkind.of_eq _)
    (fun _ => hkind.exists_represents) key,
  fun _ hdefault => getTypedOr_eq (hkind.of_arrayOf hdefault)
    (fun _ => hkind.exists_represents_list) key⟩

/-- A number, a text that is none and a truth value under one key, with a
list of one integer as the default. -/
theorem getTypedOr_of_mixed_items :
    ∃ (s : MapState Memory.Repository),
      (s.cache.slots.get? "a").map (·.value) =
        some (.array [.long 1, .string "x", .bool true]) ∧
      Memory.Site.sample.map.getTypedOr (α := List Int64) "a" [7] s =
        (.ok [1, 1], s) ∧
      Memory.Site.sample.map.getOr? "a" (some (.array [.long 7])) s =
        (.ok (some (.array [.long 1, .long 1])), s) := by
  let v : Value := .array [.long 1, .string "x", .bool true]
  let e : Entry Memory.Repository := ⟨.pending v, true⟩
  let s : MapState Memory.Repository :=
    { Memory.Site.sampleState with
      cache := ⟨Dict.empty.set "a" ⟨e, v⟩, true⟩ }
  have htyped : Memory.Site.sample.map.getTypedOr (α := List Int64) "a" [7]
      s = (.ok [1, 1], s) := rfl
  obtain ⟨-, hlist⟩ := getTypedOr_eq_getOr? Memory.Site.sample.map "a" Int64
    .long .long
  have h := congrFun (hlist [7] (by decide)) s
  rw [run_map, htyped] at h
  exact ⟨s, rfl, htyped, h.symm⟩

end PropertyMap

end ContentProperties
