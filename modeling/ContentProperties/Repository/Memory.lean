/-
A repository in memory. Nodes keep their properties in the order in
which they were first set, and show their types as properties before
all others. Types and properties live apart: the names of the type
properties are protected against plain writes. Every node counts the
calls made to it, and some of its calls can be made to fail.
-/
import ContentProperties.Dict
import ContentProperties.Name.Segments
import ContentProperties.Repository.Node

namespace ContentProperties.Memory

-- ================================================= properties

/-- A property as it is kept. -/
structure StoredProperty where
  name : String
  type : PropertyType
  values : List StoredValue
  multiple : Bool

namespace StoredProperty

/-- A property with one value. -/
def single (name : String) (type : PropertyType) (v : StoredValue) :
    StoredProperty :=
  ⟨name, type, [v], false⟩

/-- A property with any number of values. -/
def multi (name : String) (type : PropertyType) (vs : List StoredValue) :
    StoredProperty :=
  ⟨name, type, vs, true⟩

variable {σ : Type}

/-- The one value of a single-valued property. -/
def first (p : StoredProperty) : Act σ StoredValue :=
  match p.values with
  | v :: _ => pure v
  | [] => throw (.valueFormat (p.name ++ " has no value"))

/-- The lengths of stored values, in order. -/
def lengthsOf : List StoredValue → Act σ (List Nat)
  | [] => pure []
  | v :: rest => do
      let n ← v.length
      let ns ← lengthsOf rest
      pure (n :: ns)

/-- The property as a reader of the node sees it. -/
def toProperty (p : StoredProperty) : Property σ where
  name := p.name
  type := p.type
  multiple := p.multiple
  value :=
    if p.multiple then pure (.array (p.values.map StoredValue.toValue))
    else do
      let v ← p.first
      pure v.toValue
  length :=
    if p.multiple then throw (.valueFormat (p.name ++ " is multi-valued"))
    else do
      let v ← p.first
      v.length
  lengths :=
    if p.multiple then lengthsOf p.values
    else throw (.valueFormat (p.name ++ " is single-valued"))

end StoredProperty

-- ================================================= nodes

/-- How often a node was asked. -/
structure Counters where
  /-- Enumerations of all properties. -/
  enumerations : Nat
  /-- Lookups of one property. -/
  lookups : Nat
  /-- Questions for the primary type. -/
  typeLookups : Nat
  /-- Changes of any kind. -/
  writes : Nat
  deriving DecidableEq

/-- The state of a node. -/
structure NodeState where
  path : String
  /-- The session it belongs to. -/
  session : Nat
  primaryType : String
  mixins : List String
  properties : Dict StoredProperty
  /-- The children, by name. -/
  children : Dict Nat
  /-- Whether the primary type is not shown as a property. -/
  hidesPrimaryType : Bool
  failsEnumeration : Bool
  failsPath : Bool
  counters : Counters

namespace NodeState

/-- A node without properties. -/
def new (path : String) (session : Nat) : NodeState :=
  ⟨path, session, unstructuredType, [], Dict.empty, Dict.empty, false, false,
    false, ⟨0, 0, 0, 0⟩⟩

/-- The property that shows a type, under its protected name. -/
def typeProperty? (n : NodeState) (name : String) : Option StoredProperty :=
  if name = primaryTypeName then
    if n.hidesPrimaryType then none
    else some (.single primaryTypeName .name (.string n.primaryType))
  else if name = mixinTypesName then
    if n.mixins.isEmpty then none
    else some (.multi mixinTypesName .name (n.mixins.map .string))
  else none

/-- The property of the node itself under a name. -/
def property? (n : NodeState) (name : String) : Option StoredProperty :=
  match n.typeProperty? name with
  | some p => some p
  | none => n.properties.get? name

/-- All properties, those that show types first. -/
def allProperties (n : NodeState) : List StoredProperty :=
  (n.typeProperty? primaryTypeName).toList ++
    (n.typeProperty? mixinTypesName).toList ++ n.properties.values

end NodeState

/-- The state of a session. -/
structure SessionState where
  prefixes : List String
  /-- How often the prefixes were asked for. -/
  calls : Nat

/-- The prefixes that every session knows, the empty one included. -/
def SessionState.new : SessionState :=
  ⟨["", "jcr", "nt", "mix", "sling", "sv", "xml"], 0⟩

-- ================================================= repositories

/-- The calls of a node and its session that can be made to fail. -/
inductive Method where
  | path
  | hasProperty
  | property
  | properties
  | primaryType
  | mixins
  | addMixin
  | removeMixin
  | setPrimaryType
  | setProperty
  | setMultiProperty
  | removeProperty
  | namespacePrefixes
  | createBinary
  deriving DecidableEq

/-- The faults of a node: which calls fail, and which names it claims to
have properties under. -/
structure Faults where
  failure? : Method → Option RepositoryError
  ghosts : List String

/-- All nodes and sessions, by number. -/
structure Repository where
  nodes : Nat → NodeState
  /-- The number of nodes. -/
  nodeCount : Nat
  sessions : Nat → SessionState
  /-- The number of sessions. -/
  sessionCount : Nat
  faults : Nat → Faults

namespace Repository

/-- A repository without nodes. -/
def empty : Repository :=
  ⟨fun _ => NodeState.new "" 0, 0, fun _ => SessionState.new, 0,
    fun _ => ⟨fun _ => none, []⟩⟩

/-- Changes one node. -/
def modifyNode (id : Nat) (f : NodeState → NodeState) (r : Repository) :
    Repository :=
  ⟨fun i => if i = id then f (r.nodes i) else r.nodes i, r.nodeCount,
    r.sessions, r.sessionCount, r.faults⟩

/-- Changes one session. -/
def modifySession (id : Nat) (f : SessionState → SessionState)
    (r : Repository) : Repository :=
  ⟨r.nodes, r.nodeCount,
    fun i => if i = id then f (r.sessions i) else r.sessions i,
    r.sessionCount, r.faults⟩

/-- Changes the faults of one node. -/
def modifyFaults (id : Nat) (f : Faults → Faults) (r : Repository) :
    Repository :=
  ⟨r.nodes, r.nodeCount, r.sessions, r.sessionCount,
    fun i => if i = id then f (r.faults i) else r.faults i⟩

/-- Adds a session, and yields its number. -/
def newSession (r : Repository) : Nat × Repository :=
  (r.sessionCount,
    ⟨r.nodes, r.nodeCount,
      fun i => if i = r.sessionCount then SessionState.new else r.sessions i,
      r.sessionCount + 1, r.faults⟩)

/-- Adds a node, and yields its number. -/
def newNode (path : String) (session : Nat) (r : Repository) :
    Nat × Repository :=
  (r.nodeCount,
    ⟨fun i => if i = r.nodeCount then NodeState.new path session
      else r.nodes i,
      r.nodeCount + 1, r.sessions, r.sessionCount, r.faults⟩)

/-- Adds a child to a node, unless it has one of the name, and yields the
child's number. -/
def addChild (id : Nat) (name : String) (r : Repository) :
    Nat × Repository :=
  let parent := r.nodes id
  match parent.children.get? name with
  | some child => (child, r)
  | none =>
      let path :=
        if parent.path.endsWith "/" then parent.path ++ name
        else parent.path ++ "/" ++ name
      let (child, r) := r.newNode path parent.session
      (child, r.modifyNode id fun n =>
        { n with children := n.children.set name child })

/-- The node reached by a path of child names. -/
def descend? (r : Repository) (id : Nat) : List String → Option Nat
  | [] => some id
  | name :: rest =>
      match (r.nodes id).children.get? name with
      | some child => r.descend? child rest
      | none => none

/-- The property at a relative path. Empty segments and single dots lead
nowhere else; without a slash the path is a name. -/
def resolve? (r : Repository) (id : Nat) (path : String) :
    Option StoredProperty :=
  let segments := (Name.segments path.toList).map String.ofList
  let name := segments.getLast?.getD ""
  let parents := segments.dropLast.filter fun s => s ≠ "" && s ≠ "."
  match r.descend? id parents with
  | some owner => (r.nodes owner).property? name
  | none => none

end Repository

-- ================================================= calls

/-- Calls on a repository in memory. -/
abbrev Call := Act Repository

/-- The state of a node. -/
def nodeState (id : Nat) : Call NodeState := Act.look fun r => r.nodes id

/-- Changes the state of a node. -/
def changeNode (id : Nat) (f : NodeState → NodeState) : Call Unit :=
  Act.update (Repository.modifyNode id f)

/-- Counts a call. -/
def count (id : Nat) (f : Counters → Counters) : Call Unit :=
  changeNode id fun n => { n with counters := f n.counters }

/-- Counts a change. -/
def countWrite (id : Nat) : Call Unit :=
  count id fun c => { c with writes := c.writes + 1 }

/-- Refuses a write to the name of a type property. -/
def checkWritable (name : String) : Call Unit :=
  if name = primaryTypeName ∨ name = mixinTypesName then
    throw (.constraintViolation (name ++ " is protected"))
  else pure ()

/-- The stored value with its content in memory. A binary of unknown
length is read, and replaced by a new one. -/
def buffered : StoredValue → Call StoredValue
  | .binary b =>
      match b.length? with
      | some _ => pure (.binary b)
      | none => do
          let bytes ← Act.readAll b
          let copy ← Act.newBinary (.buffered bytes)
          pure (.binary copy)
  | v => pure v

/-- Stored values with their content in memory. -/
def bufferedAll : List StoredValue → Call (List StoredValue)
  | [] => pure []
  | v :: rest => do
      let v ← buffered v
      let vs ← bufferedAll rest
      pure (v :: vs)

/-- Keeps a property under its name. -/
def keep (id : Nat) (p : StoredProperty) : Call Unit :=
  changeNode id fun n => { n with properties := n.properties.set p.name p }

/-- The session of the given number. -/
def session (id : Nat) : Session Repository where
  namespacePrefixes := do
    Act.update (Repository.modifySession id fun s =>
      { s with calls := s.calls + 1 })
    Act.look fun r => (r.sessions id).prefixes
  createBinary bytes := Act.newBinary (.buffered bytes)

/-- Registers a namespace prefix with a session. -/
def registerPrefix (id : Nat) (name : String) : Call Unit :=
  Act.update <| Repository.modifySession id fun s =>
    if s.prefixes.contains name then s
    else { s with prefixes := s.prefixes ++ [name] }

/-- Looks a property up, which is counted. -/
def lookup (id : Nat) (path : String) : Call (Option StoredProperty) := do
  count id fun c => { c with lookups := c.lookups + 1 }
  Act.look fun r => r.resolve? id path

/-- Writes a single-valued property. -/
def setProperty (id : Nat) (name : String) (v : StoredValue) :
    Call Unit := do
  checkWritable name
  countWrite id
  let v ← buffered v
  keep id (.single name v.propertyType v)

/-- Writes a multi-valued property. It has the type of its first value,
and of a string if it is empty. -/
def setMultiProperty (id : Nat) (name : String) (vs : List StoredValue) :
    Call Unit := do
  checkWritable name
  countWrite id
  let vs ← bufferedAll vs
  let type := (vs.head?.map StoredValue.propertyType).getD .string
  keep id (.multi name type vs)

/-- The node of the given number, whose session has the other number. -/
def node (id sessionId : Nat) : Node Repository where
  session := session sessionId
  path := do
    let n ← nodeState id
    if n.failsPath then throw (.other "node is no longer valid")
    else pure n.path
  hasProperty name := do
    let found ← lookup id name
    pure found.isSome
  property name := do
    match ← lookup id name with
    | some p => pure p.toProperty
    | none =>
        let n ← nodeState id
        throw (.notFound (n.path ++ "/" ++ name))
  property? name := do
    let found ← lookup id name
    pure (found.map StoredProperty.toProperty)
  properties := do
    count id fun c => { c with enumerations := c.enumerations + 1 }
    let n ← nodeState id
    if n.failsEnumeration then
      throw (.other ("cannot enumerate properties of " ++ n.path))
    else pure (n.allProperties.map StoredProperty.toProperty)
  primaryType := do
    count id fun c => { c with typeLookups := c.typeLookups + 1 }
    let n ← nodeState id
    pure n.primaryType
  mixins := do
    let n ← nodeState id
    pure n.mixins
  addMixin name := do
    countWrite id
    changeNode id fun n =>
      if n.mixins.contains name then n
      else { n with mixins := n.mixins ++ [name] }
  removeMixin name := do
    countWrite id
    let n ← nodeState id
    if n.mixins.contains name then
      changeNode id fun n =>
        { n with mixins := n.mixins.filter fun m => m ≠ name }
    else throw (.notFound ("mixin " ++ name))
  setPrimaryType name := do
    countWrite id
    changeNode id fun n => { n with primaryType := name }
  setProperty := setProperty id
  setMultiProperty := setMultiProperty id
  removeProperty name := do
    checkWritable name
    countWrite id
    changeNode id fun n => { n with properties := n.properties.erase name }

-- ================================================= filling a node

/-- The stored form that a value must have to be inserted. -/
def native (sessionId : Nat) (name : String) (v : Value) :
    Call StoredValue := do
  match ← (session sessionId).store? v with
  | some stored => pure stored
  | none =>
      throw (.valueFormat (name ++ ": " ++ v.kindName ++
        " has no stored form"))

/-- The stored forms of the items of an array. -/
def nativeAll (sessionId : Nat) (name : String) :
    List Value → Call (List StoredValue)
  | [] => pure []
  | v :: rest => do
      let s ← native sessionId name v
      let ss ← nativeAll sessionId name rest
      pure (s :: ss)

/-- Stores a value under a name, an array as a multi-valued property. -/
def insert (id sessionId : Nat) (name : String) : Value → Call Unit
  | .array items => do
      let vs ← nativeAll sessionId name items
      setMultiProperty id name vs
  | v => do
      let s ← native sessionId name v
      setProperty id name s

/-- Leaves the primary type out of the properties, or shows it there
again. The type itself stays. -/
def hidePrimaryType (id : Nat) (hide : Bool) : Call Unit :=
  changeNode id fun n => { n with hidesPrimaryType := hide }

end ContentProperties.Memory
