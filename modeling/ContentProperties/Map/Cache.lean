/-
The state of a map and the operations on it. A map caches what it has
read, each property as an entry with the value that the entry yielded.
Maps of one provider share the prefixes it has cached, and all maps act
on one world.
-/
import ContentProperties.Conversion.Entry
import ContentProperties.Dict

namespace ContentProperties

variable {σ α : Type}

-- ================================================= state

/-- A cached property. -/
structure Slot (σ : Type) where
  entry : Entry σ
  /-- The value the entry had when it was cached. -/
  value : Value

/-- The cache of a map, by key, and whether it holds all properties. -/
structure Cache (σ : Type) where
  slots : Dict (Slot σ)
  fullyRead : Bool

/-- Nothing has been read. -/
def Cache.empty : Cache σ := ⟨Dict.empty, false⟩

/-- What the operations of a map act on. -/
structure MapState (σ : Type) where
  cache : Cache σ
  /-- The prefixes that the provider has cached. -/
  prefixes : PrefixCache
  world : World σ

/-- An operation of a map. It may fail, and keeps what it changed until
then. -/
abbrev MapM (σ : Type) := ExceptT MapError (StateM (MapState σ))

namespace MapM

-- ================================================= calls

/-- Runs a call of the world. -/
def ofWorld (run : StateM (World σ) α) : MapM σ α := fun s =>
  let (a, w) := run s.world
  (.ok a, ⟨s.cache, s.prefixes, w⟩)

/-- A call to the repository, with its failure as a value. -/
def attempt (act : Act σ α) : MapM σ (Except RepositoryError α) :=
  ofWorld (Act.attempt act)

/-- A call to the repository whose failure is that of a lookup. -/
def ofAct (act : Act σ α) : MapM σ α := do
  match ← attempt act with
  | .ok a => pure a
  | .error e => throw (.repository e)

/-- An operation on the world alone. -/
def ofEntry (run : ExceptT MapError (StateM (World σ)) α) : MapM σ α := do
  match ← ofWorld (ExceptT.run run) with
  | .ok a => pure a
  | .error e => throw e

/-- A conversion, which ends the operation if it is broken off. -/
def ofConversion (run : ExceptT Abort (StateM (World σ)) α) : MapM σ α := do
  match ← ofWorld (ExceptT.run run) with
  | .ok a => pure a
  | .error cause => throw (.aborted cause)

/-- What an operation yields, with its failure as a value. -/
def result (op : MapM σ α) : MapM σ (Except MapError α) := fun s =>
  let (r, s) := op s
  (.ok r, s)

/-- The operation with its failure changed. -/
def mapError (f : MapError → MapError) (op : MapM σ α) : MapM σ α :=
  fun s =>
    match op s with
    | (.ok a, s) => (.ok a, s)
    | (.error e, s) => (.error (f e), s)

-- ================================================= the cache

/-- The cached properties. -/
def slots : MapM σ (Dict (Slot σ)) := fun s => (.ok s.cache.slots, s)

/-- Whether all properties have been read. -/
def isFullyRead : MapM σ Bool := fun s => (.ok s.cache.fullyRead, s)

/-- Changes the cached properties. -/
def modifySlots (f : Dict (Slot σ) → Dict (Slot σ)) : MapM σ Unit :=
  fun s => (.ok (), ⟨⟨f s.cache.slots, s.cache.fullyRead⟩, s.prefixes,
    s.world⟩)

/-- Notes that all properties have been read. -/
def setFullyRead : MapM σ Unit := fun s =>
  (.ok (), ⟨⟨s.cache.slots, true⟩, s.prefixes, s.world⟩)

end MapM

-- ================================================= namespace prefixes

namespace Provider

/-- The namespace prefixes that are registered. They are asked for once,
if the options say so, and else each time. -/
def namespacePrefixes (provider : Provider) (session : Session σ) :
    MapM σ (List String) := do
  if provider.options.cacheNamespacePrefixes then
    match ← (fun s => (.ok s.prefixes, s) : MapM σ PrefixCache) with
    | some known => pure known
    | none =>
        let known ← MapM.ofAct session.namespacePrefixes
        modify fun s => ⟨s.cache, some known, s.world⟩
        pure known
  else MapM.ofAct session.namespacePrefixes

/-- Whether a namespace prefix is registered. -/
def isRegistered (provider : Provider) (session : Session σ)
    (name : String) : MapM σ Bool := do
  let known ← provider.namespacePrefixes session
  pure (known.contains name)

end Provider

end ContentProperties
