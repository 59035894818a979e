/-
Property maps: the properties of a node by key. A key is looked up one
property at a time and cached; reading all properties is done once, and
after it the cache answers alone. The first entry cached under a key
stays.

Keys and storage names are different things. A key is escaped into a
storage name, except for a registered namespace prefix before a colon; a
storage name is decoded into a key, in the ISO 9075 encoding if that
changes it and else by unescaping.

The resource type, unless a property sets it, is the primary type, and
the primary type is taken from the type registry where no property shows
it. Both are cached like properties.
-/
import ContentProperties.Map.Cache
import ContentProperties.Name.Iso9075
import ContentProperties.Name.Percent

namespace ContentProperties

/-- A map over the properties of a node. -/
structure PropertyMap (σ : Type) where
  node : Node σ
  provider : Provider
  /-- Whether the map writes changes to the node, or refuses them. -/
  writable : Bool

namespace PropertyMap

variable {σ : Type} (m : PropertyMap σ)

-- ================================================= keys and names

/-- The key without the `./` that callers may put in front of it. -/
def plainKey (key : String) : String :=
  match key.toList with
  | '.' :: '/' :: rest => String.ofList rest
  | _ => key

/-- Whether the key is a path. -/
def isPath (key : String) : Bool := key.toList.contains '/'

/-- The parts of a key before and after its first colon, unless one of
them is empty. -/
def splitPrefix? (key : String) : Option (String × String) :=
  let front := key.toList.takeWhile (· != ':')
  match key.toList.dropWhile (· != ':') with
  | _ :: rest =>
      if front.isEmpty || rest.isEmpty then none
      else some (String.ofList front, String.ofList rest)
  | [] => none

/-- The storage name of a key. After a registered prefix only the local
part is escaped. -/
def escapeKey (key : String) : MapM σ String := do
  match splitPrefix? key with
  | none => pure (Name.escape key)
  | some (front, local_) =>
      if ← m.provider.isRegistered m.node.session front then
        pure (front ++ ":" ++ Name.escape local_)
      else pure (Name.escape key)

/-- The key of a storage name. -/
def decodeName (legacy : Bool) (name : String) : String :=
  if legacy then
    let decoded := Name.decode name
    if decoded ≠ name then decoded else Name.unescape name
  else Name.unescape name

-- ================================================= caching

/-- The slot of a property that was read, not cached yet. -/
def readSlot (p : Property σ) : Act σ (Slot σ) := do
  let entry ← Entry.ofProperty p
  let v ← entry.value
  pure ⟨entry, v⟩

/-- Caches a property under the key decoded from its name, unless there
is an entry for that key already. -/
def cacheProperty (p : Property σ) : MapM σ (Slot σ) := do
  let key := decodeName m.provider.options.legacyPathEncoding p.name
  match (← MapM.slots).get? key with
  | some slot => pure slot
  | none =>
      let slot ← MapM.ofAct (readSlot p)
      MapM.modifySlots (·.set key slot)
      pure slot

/-- Caches a value under a key, unless there is an entry for that key
already. -/
def cacheValue (key : String) (v : Value) : MapM σ (Slot σ) := do
  match (← MapM.slots).get? key with
  | some slot => pure slot
  | none =>
      let entry ← MapM.ofEntry (Entry.ofValue m.node.session v)
      let slot : Slot σ := ⟨entry, v⟩
      MapM.modifySlots (·.set key slot)
      pure slot

/-- Caches the primary type as the type registry has it. -/
def cachePrimaryType : MapM σ (Slot σ) := do
  let name ← MapM.ofAct m.node.primaryType
  m.cacheValue primaryTypeName (.string name)

-- ================================================= reading one key

/-- Reads the property of a storage name without caching it; if there is
none, `otherwise` has the word. -/
def readAt (name : String) (otherwise : MapM σ (Option (Slot σ))) :
    MapM σ (Option (Slot σ)) := do
  match ← MapM.ofAct (m.node.property? name) with
  | some p => some <$> MapM.ofAct (readSlot p)
  | none => otherwise

/-- Reads the property at a path, which is not cached. -/
def readPath (path : String) : MapM σ (Option (Slot σ)) :=
  let escaped := Name.escapePath path
  let encoded := Name.encodePath path
  if m.provider.options.legacyPathEncoding then
    m.readAt encoded <|
      if encoded = escaped then pure none
      else m.readAt escaped (pure none)
  else m.readAt escaped (pure none)

/-- Reads a property from the cache, or else from the node; if there is
none, `otherwise` has the word. After reading all properties the cache
decides alone. -/
def readOr (key : String) (otherwise : MapM σ (Option (Slot σ))) :
    MapM σ (Option (Slot σ)) := do
  match (← MapM.slots).get? key with
  | some slot => pure (some slot)
  | none =>
      if ← MapM.isFullyRead then pure none
      else
        let name ← m.escapeKey key
        match ← MapM.ofAct (m.node.property? name) with
        | some p => some <$> m.cacheProperty p
        | none => otherwise

/-- Reads the primary type. -/
def readPrimaryType : MapM σ (Option (Slot σ)) :=
  m.readOr primaryTypeName (some <$> m.cachePrimaryType)

/-- Reads the resource type, which is the primary type unless set. -/
def readResourceType : MapM σ (Option (Slot σ)) :=
  m.readOr resourceTypeName do
    match ← m.readPrimaryType with
    | some primary => some <$> m.cacheValue resourceTypeName primary.value
    | none => pure none

/-- Reads what is under a key. -/
def read (key : String) : MapM σ (Option (Slot σ)) :=
  if key = "" then pure none
  else if isPath key then m.readPath key
  else if key = primaryTypeName then m.readPrimaryType
  else if key = resourceTypeName ∧ m.provider.options.synthesizeResourceType
  then m.readResourceType
  else m.readOr key (pure none)

-- ================================================= reading all

/-- Caches properties one after the other. -/
def cacheAll : List (Property σ) → MapM σ Unit
  | [] => pure ()
  | p :: rest => do
      discard (m.cacheProperty p)
      cacheAll rest

/-- Caches the primary type, unless a property has shown it. -/
def synthesizePrimaryType : MapM σ Unit := do
  let slots ← MapM.slots
  if slots.contains primaryTypeName then pure ()
  else discard m.cachePrimaryType

/-- Caches the primary type as the resource type, unless a property has
set that. -/
def synthesizeResourceType : MapM σ Unit := do
  let slots ← MapM.slots
  if slots.contains resourceTypeName then pure ()
  else
    match slots.get? primaryTypeName with
    | some primary => discard (m.cacheValue resourceTypeName primary.value)
    | none => pure ()

/-- Caches the types that no property has shown. -/
def synthesizeTypes : MapM σ Unit := do
  m.synthesizePrimaryType
  if m.provider.options.synthesizeResourceType then
    m.synthesizeResourceType

/-- Caches all properties, and then the types. -/
def cacheNode : MapM σ Unit := do
  let properties ← MapM.ofAct m.node.properties
  m.cacheAll properties
  m.synthesizeTypes

/-- The failure of a lookup as one of reading all properties. -/
def whileReading (path : String) : MapError → MapError
  | .repository e => .state ("failed to read properties of " ++ path) e
  | e => e

/-- Reads all properties, once. What is cached already is kept. -/
def readFully : MapM σ Unit := do
  if ← MapM.isFullyRead then pure ()
  else
    let path ← MapM.attempt m.node.path
    MapM.mapError (whileReading (path.toOption.getD "")) m.cacheNode
    MapM.setFullyRead

-- ================================================= views

/-- The value under a key. -/
def get? (key : String) : MapM σ (Option Value) := do
  let slot? ← m.read (plainKey key)
  pure (slot?.map (·.value))

/-- The value under a key, converted. -/
def getAs? (key : String) (target : ValueType) :
    MapM σ (Option (Converted σ)) := do
  if target = .unknown then
    let v? ← m.get? key
    pure (v?.map .value)
  else
    match ← m.read (plainKey key) with
    | none => pure none
    | some slot =>
        MapM.ofConversion
          (slot.entry.convert m.node.session m.provider target)

/-- Whether there is a value under a key. -/
def containsKey (key : String) : MapM σ Bool := do
  m.readFully
  let slot? ← m.read (plainKey key)
  pure slot?.isSome

/-- Whether a value is among those of the map. -/
def containsValue (v : Value) : MapM σ Bool := do
  m.readFully
  let slots ← MapM.slots
  pure (slots.values.any fun slot => slot.value == v)

/-- The number of keys. -/
def size : MapM σ Nat := do
  m.readFully
  let slots ← MapM.slots
  pure slots.size

/-- Whether there are no keys. -/
def isEmpty : MapM σ Bool := do
  let n ← m.size
  pure (n == 0)

/-- The keys, in the order in which they were read. -/
def keys : MapM σ (List String) := do
  m.readFully
  let slots ← MapM.slots
  pure slots.keys

/-- The keys with their values. -/
def entries : MapM σ (List (String × Value)) := do
  m.readFully
  let slots ← MapM.slots
  pure (slots.entries.map fun e => (e.1, e.2.value))

/-- The values. -/
def values : MapM σ (List Value) := do
  m.readFully
  let slots ← MapM.slots
  pure (slots.values.map (·.value))

/-- The path of the node. -/
def path : MapM σ String := do
  match ← MapM.attempt m.node.path with
  | .ok p => pure p
  | .error e => throw (.state "failed to read node path" e)

-- ================================================= text

/-- The path of the node for a message. -/
def shownPath : MapM σ String := do
  let path ← MapM.attempt m.node.path
  pure (path.toOption.getD "<unavailable>")

/-- The text of an entry. -/
def entryText (e : String × Slot σ) : String :=
  e.1 ++ "=" ++ e.2.value.toText

/-- The name of the kind of map. -/
def kindName : String :=
  if m.writable then "ModifiablePropertyMap" else "PropertyMap"

/-- The text of the map: its node, and what can be read of its entries. -/
def toText : MapM σ String := do
  discard (MapM.result m.readFully)
  let path ← m.shownPath
  let slots ← MapM.slots
  let shown := ", ".intercalate (slots.entries.map entryText)
  pure (m.kindName ++ " [node=" ++ path ++ ", values=\x7b" ++ shown ++
    "\x7d]")

/-- The map with writing refused, over the same cache. -/
def readOnly : PropertyMap σ := { m with writable := false }

end PropertyMap

end ContentProperties
