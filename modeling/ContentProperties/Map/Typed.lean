/-
Typed access and defaults. A type that property values can be read into
names the value type it asks for, and picks itself out of what the
conversion to that type yields. A value is asked for in such a type, or
in the type of a default that takes its place where it is missing or
cannot be converted.
-/
import ContentProperties.Map.PropertyMap

namespace ContentProperties

open Time

variable {σ : Type}

-- ================================================= typed results

/-- A type that a property can be read into. -/
class Convertible (σ : Type) (α : Type) where
  /-- The type to convert to. -/
  valueType : ValueType
  /-- What the result of that conversion is in this type, if anything. -/
  ofConverted? : Converted σ → StateM (World σ) (Option α)

namespace Convertible

/-- The type that asks for one kind of value. -/
abbrev ofKind {α : Type} (t : ValueType) (pick : Value → Option α) :
    Convertible σ α :=
  ⟨t, fun c => pure (c.asValue?.bind pick)⟩

instance : Convertible σ String :=
  ofKind .string fun | .string v => some v | _ => none

instance : Convertible σ Int8 :=
  ofKind .byte fun | .byte v => some v | _ => none

instance : Convertible σ Int16 :=
  ofKind .short fun | .short v => some v | _ => none

instance : Convertible σ Int32 :=
  ofKind .int fun | .int v => some v | _ => none

instance : Convertible σ Int64 :=
  ofKind .long fun | .long v => some v | _ => none

instance : Convertible σ Float32 :=
  ofKind .float fun | .float v => some v | _ => none

instance : Convertible σ Float :=
  ofKind .double fun | .double v => some v | _ => none

instance : Convertible σ Decimal :=
  ofKind .decimal fun | .decimal v => some v | _ => none

instance : Convertible σ Bool :=
  ofKind .bool fun | .bool v => some v | _ => none

instance : Convertible σ Char :=
  ofKind .char fun | .char v => some v | _ => none

instance : Convertible σ Instant :=
  ofKind .date fun | .date v => some v | _ => none

/-- A timestamp in a zone, told from other timestamps by its type. -/
structure Zoned where
  timestamp : Timestamp

instance : Convertible σ Timestamp :=
  ofKind .calendar fun | .calendar v => some v | _ => none

instance : Convertible σ Zoned :=
  ofKind .zoned fun | .zoned v => some ⟨v⟩ | _ => none

instance : Convertible σ Binary :=
  ofKind .binary fun | .binary v => some v | _ => none

/-- An object asks for anything with a serialized form, and is nothing
unless that is an object. -/
instance : Convertible σ ObjectValue :=
  ofKind .serializable fun | .object v => some v | _ => none

instance : Convertible σ ObjectStream :=
  ⟨.objectStream, fun | .stream s => pure (some s) | _ => pure none⟩

instance : Convertible σ StoredValue :=
  ⟨.stored, fun | .stored v => pure (some v) | _ => pure none⟩

instance : Convertible σ (Property σ) :=
  ⟨.property, fun | .property p => pure (some p) | _ => pure none⟩

/-- A value takes whatever is natural. -/
instance : Convertible σ Value := ⟨.unknown, Converted.toValue?⟩

/-- The results that are something in the type. -/
def ofEach {α : Type} [Convertible σ α] :
    List (Converted σ) → StateM (World σ) (List α)
  | [] => pure []
  | c :: rest => do
      let a? ← ofConverted? c
      let as ← ofEach rest
      pure (a?.toList ++ as)

/-- A list asks for an array, and keeps the items that are something in
its type. -/
instance {α : Type} [Convertible σ α] : Convertible σ (List α) :=
  ⟨.array (valueType σ α), fun
    | .array items => do
        let as ← ofEach items
        pure (some as)
    | .value (.array items) => do
        let as ← ofEach (items.map Converted.value)
        pure (some as)
    | _ => pure none⟩

end Convertible

namespace PropertyMap

variable (m : PropertyMap σ)

-- ================================================= typed access

/-- The value under a key in a type. -/
def getTyped? (α : Type) [Convertible σ α] (key : String) :
    MapM σ (Option α) := do
  match ← m.getAs? key (Convertible.valueType σ α) with
  | some c => MapM.ofWorld (Convertible.ofConverted? c)
  | none => pure none

/-- The value under a key in a type, or the default. -/
def getTypedOr {α : Type} [Convertible σ α] (key : String) (default : α) :
    MapM σ α := do
  let a? ← m.getTyped? α key
  pure (a?.getD default)

/-- The value under a key in the type of a default value, or the default;
without a default, the value as it is. -/
def getOr? (key : String) (default? : Option Value) :
    MapM σ (Option Value) := do
  match default? with
  | none => m.get? key
  | some default =>
      match ← m.getAs? key (ValueType.of default) with
      | some c =>
          let v? ← MapM.ofWorld c.toValue?
          pure (some (v?.getD default))
      | none => pure (some default)

end PropertyMap

end ContentProperties
