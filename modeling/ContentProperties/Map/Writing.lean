/-
Writing through a map. An entry is first converted to what is asked of
the node, and only then the node is changed; so an entry whose conversion
is broken off changes nothing. Every change is applied to the node at
once, and to the cache only after the node has accepted it; nothing is
kept back and nothing is undone. The names of the type properties are
written by changing the types.
-/
import ContentProperties.Map.Typed

namespace ContentProperties

variable {σ : Type}

-- ================================================= to the node

/-- What writing an entry asks of the node. -/
inductive Change where
  /-- To have these mixin types and no others. -/
  | mixins (names : List String)
  /-- To have this primary type. -/
  | primaryType (name : String)
  /-- To store one value. -/
  | property (name : String) (v : StoredValue)
  /-- To store any number of values. -/
  | multiProperty (name : String) (vs : List StoredValue)
  /-- Nothing there is: the entry has not the shape that the name asks
  for. -/
  | impossible (reason : String)

/-- Has a node change. -/
def Change.apply (node : Node σ) : Change → Act σ Unit
  | .mixins names => node.reconcileMixins names
  | .primaryType name => node.setPrimaryType name
  | .property name v => node.setProperty name v
  | .multiProperty name vs => node.setMultiProperty name vs
  | .impossible reason => throw (.valueFormat reason)

namespace PropertyMap

variable (m : PropertyMap σ)

/-- An entry in a type. -/
def entryAs? (α : Type) [Convertible σ α] (e : Entry σ) :
    ExceptT Abort (StateM (World σ)) (Option α) := do
  let target := Convertible.valueType σ α
  match ← e.convert m.node.session m.provider target with
  | some c => ExceptT.lift (Convertible.ofConverted? c)
  | none => pure none

/-- What writing an entry under a storage name asks of the node. -/
def changeFor (name : String) (e : Entry σ) :
    ExceptT Abort (StateM (World σ)) Change := do
  if name = mixinTypesName then
    let names? ← m.entryAs? (List String) e
    pure (.mixins (names?.getD []))
  else if name = primaryTypeName then
    match ← m.entryAs? String e with
    | some primary => pure (.primaryType primary)
    | none => pure (.impossible (name ++ " must be a single name"))
  else if e.isArray then
    let vs? ← m.entryAs? (List StoredValue) e
    pure (.multiProperty name (vs?.getD []))
  else
    match ← m.entryAs? StoredValue e with
    | some v => pure (.property name v)
    | none => pure (.impossible (name ++ " has no stored form"))

-- ================================================= failures

/-- The failure to put a value. -/
def rejected {α : Type} (key : String) (v : Value) (reason : String) :
    MapM σ α := do
  let path ← m.shownPath
  throw <| .invalidArgument <|
    "value of kind '" ++ v.kindName ++ "' for property '" ++ key ++
      "' can't be put into node '" ++ path ++ "': " ++ reason

/-- The failure to remove a key. -/
def notRemoved {α : Type} (key : String) (reason : String) : MapM σ α := do
  let path ← m.shownPath
  throw <| .invalidArgument <|
    "property '" ++ key ++ "' can't be removed from node '" ++ path ++
      "': " ++ reason

-- ================================================= changes

/-- The entry of a value to be put under a key, and what writing it asks
of the node. The node is not changed yet. -/
def prepare (key : String) (v : Value) : MapM σ (Entry σ × Change) := do
  match ← MapM.result (MapM.ofEntry (Entry.ofValue m.node.session v)) with
  | .error e => m.rejected key v e.message
  | .ok entry =>
      let name ← m.escapeKey key
      let change ← MapM.ofConversion (m.changeFor name entry)
      pure (entry, change)

/-- Has the node make the change that putting a value asks for. -/
def commit (key : String) (v : Value) (change : Change) : MapM σ Unit := do
  match ← MapM.attempt (change.apply m.node) with
  | .error e => m.rejected key v e.message
  | .ok _ => pure ()

/-- Writes a value under a key, and yields the one it replaces. Keys of a
map that is written to are no paths. -/
def put (key : String) (v : Value) : MapM σ (Option Value) := do
  if !m.writable then throw (.unsupported "put")
  let key := plainKey key
  if isPath key then throw (.invalidArgument ("invalid key: " ++ key))
  m.readFully
  let previous ← m.get? key
  let (entry, change) ← m.prepare key v
  m.commit key v change
  MapM.modifySlots (·.set key ⟨entry, v⟩)
  pure previous

/-- Puts values one after the other, up to the first failure. -/
def putEach : List (String × Value) → MapM σ Unit
  | [] => pure ()
  | (key, v) :: rest => do
      discard (m.put key v)
      putEach rest

/-- Writes all entries in order. What was written before a failure stays
written. -/
def putAll (entries : List (String × Value)) : MapM σ Unit := do
  if !m.writable then throw (.unsupported "put_all")
  m.putEach entries

/-- Removes the property of a storage name from the node, if it is
there. -/
def removeStored (name : String) : Act σ Unit := do
  match ← m.node.property? name with
  | some _ => m.node.removeProperty name
  | none => pure ()

/-- Has the node remove the property of a key. -/
def withdraw (key : String) : MapM σ Unit := do
  let name ← m.escapeKey key
  match ← MapM.attempt (m.removeStored name) with
  | .error e => m.notRemoved key e.message
  | .ok _ => pure ()

/-- Removes a key, and yields its value. -/
def remove (key : String) : MapM σ (Option Value) := do
  if !m.writable then throw (.unsupported "remove")
  let key := plainKey key
  m.readFully
  m.withdraw key
  let slots ← MapM.slots
  MapM.modifySlots (·.erase key)
  pure ((slots.get? key).map (·.value))

/-- Removing everything is refused by every map. -/
def clear (_ : PropertyMap σ) : MapM σ Unit :=
  throw (.unsupported "clear")

end PropertyMap

end ContentProperties
