/-
The interface of a repository. A node gives access to its properties and
its types, and belongs to a session, which knows the namespaces and
creates binaries. Each is a record of calls, so that any repository can
stand behind it, also one that fails or changes between two calls.

What is done with nodes alone is here too: giving one the mixin types that
are wanted. Mixins that are not wanted go first, in the node's order;
those that are missing come then, in the order in which they are asked
for.
-/
import ContentProperties.Repository.World
import ContentProperties.Value.Stored

namespace ContentProperties

variable {σ : Type}

-- ================================================= names with a meaning

/-- The property that shows a node's primary type. -/
def primaryTypeName : String := "jcr:primaryType"

/-- The property that shows a node's mixin types. -/
def mixinTypesName : String := "jcr:mixinTypes"

/-- The property for the logical type of a resource, which is the primary
type unless it is set. -/
def resourceTypeName : String := "sling:resourceType"

/-- The primary type of a node that was given none. -/
def unstructuredType : String := "nt:unstructured"

-- ================================================= sessions

/-- The session that a node was obtained from. -/
structure Session (σ : Type) where
  /-- The namespace prefixes that are registered. -/
  namespacePrefixes : Act σ (List String)
  /-- Creates a binary with the given content. -/
  createBinary : List UInt8 → Act σ Binary

/-- The stored form of a value, if it has one: opaque objects and arrays
have none. A serializable object is stored as a binary. -/
def Session.store? (session : Session σ) :
    Value → Act σ (Option StoredValue)
  | .object o =>
      match o.streamBytes? with
      | some bytes => do
          let b ← session.createBinary bytes
          pure (some (.binary b))
      | none => pure none
  | v => pure (StoredValue.ofPlain? v)

/-- The length of a stored value: the bytes of a binary, read if they are
not known, and the characters of anything else. -/
def StoredValue.length : StoredValue → Act σ Nat
  | .binary b =>
      match b.length? with
      | some n => pure n
      | none => do
          let bytes ← Act.readAll b
          pure bytes.length
  | v => pure v.toText.length

-- ================================================= properties

/-- A property of a node. -/
structure Property (σ : Type) where
  /-- The name under which it is stored. -/
  name : String
  /-- The type it declares. -/
  type : PropertyType
  /-- Whether it holds any number of values instead of one. -/
  multiple : Bool
  /-- Its value, an array if it is multi-valued. -/
  value : Act σ Value
  /-- The length of its value, if it is single-valued. -/
  length : Act σ Nat
  /-- The lengths of its values, if it is multi-valued. -/
  lengths : Act σ (List Nat)

-- ================================================= nodes

/-- A node of a repository. -/
structure Node (σ : Type) where
  session : Session σ
  /-- The absolute path. -/
  path : Act σ String
  /-- Whether there is a property at the relative path. -/
  hasProperty : String → Act σ Bool
  /-- The property at the relative path, which must exist. -/
  property : String → Act σ (Property σ)
  /-- The property at the relative path, if it exists. -/
  property? : String → Act σ (Option (Property σ))
  /-- All properties. -/
  properties : Act σ (List (Property σ))
  /-- The name of the primary type, from the type registry. -/
  primaryType : Act σ String
  /-- The names of the mixin types. -/
  mixins : Act σ (List String)
  addMixin : String → Act σ Unit
  removeMixin : String → Act σ Unit
  setPrimaryType : String → Act σ Unit
  /-- Writes a single-valued property. -/
  setProperty : String → StoredValue → Act σ Unit
  /-- Writes a multi-valued property. -/
  setMultiProperty : String → List StoredValue → Act σ Unit
  /-- Removes a property, if it exists. -/
  removeProperty : String → Act σ Unit

/-- The lookup that asks first whether a property exists. A property that
vanished in between is no failure. -/
def Node.askThenLookup (hasProperty : String → Act σ Bool)
    (property : String → Act σ (Property σ)) (name : String) :
    Act σ (Option (Property σ)) := do
  if ← hasProperty name then
    match ← ExceptT.lift (Act.attempt (property name)) with
    | .ok p => pure (some p)
    | .error (.notFound _) => pure none
    | .error e => throw e
  else pure none

-- ================================================= mixin types

namespace Node

variable (node : Node σ)

/-- Removes the mixins that are not wanted, and yields the names that are
wanted and still missing. -/
def dropUnwanted (wanted : List String) :
    List String → Act σ (List String)
  | [] => pure wanted
  | mixin :: rest => do
      if wanted.contains mixin then
        dropUnwanted (wanted.filter fun w => w ≠ mixin) rest
      else
        node.removeMixin mixin
        dropUnwanted wanted rest

/-- Adds the mixins that are missing, in the order of the names asked
for. -/
def addMissing (missing : List String) : List String → Act σ Unit
  | [] => pure ()
  | name :: rest => do
      if missing.contains name then
        node.addMixin name
        addMissing (missing.filter fun w => w ≠ name) rest
      else addMissing missing rest

/-- Gives the node exactly the mixins asked for. -/
def reconcileMixins (names : List String) : Act σ Unit := do
  let present ← node.mixins
  let missing ← node.dropUnwanted names present
  node.addMissing missing names

end Node

end ContentProperties
