/-
Nodes whose calls can be made to fail. A faulty node delegates to a node
in memory, except that a call with a fault set for it fails before it is
delegated, that it claims to have the properties under its ghost names,
and that it looks properties up by asking for them first.
-/
import ContentProperties.Repository.Memory

namespace ContentProperties.Memory

/-- Fails if a fault is set for the call, and else goes on with it. -/
def guarded {α : Type} (id : Nat) (method : Method) (call : Call α) :
    Call α := do
  match ← Act.look fun r => (r.faults id).failure? method with
  | some e => throw e
  | none => call

/-- The faulty node over the node of the given number. -/
def faultyNode (id sessionId : Nat) : Node Repository :=
  let inner := node id sessionId
  let hasProperty (name : String) : Call Bool :=
    guarded id .hasProperty do
      let found ← inner.hasProperty name
      let ghosts ← Act.look fun r => (r.faults id).ghosts
      pure (found || ghosts.contains name)
  let property (name : String) := guarded id .property (inner.property name)
  { session :=
      { namespacePrefixes :=
          guarded id .namespacePrefixes inner.session.namespacePrefixes
        createBinary := fun bytes =>
          guarded id .createBinary (inner.session.createBinary bytes) }
    path := guarded id .path inner.path
    hasProperty := hasProperty
    property := property
    property? := Node.askThenLookup hasProperty property
    properties := guarded id .properties inner.properties
    primaryType := guarded id .primaryType inner.primaryType
    mixins := guarded id .mixins inner.mixins
    addMixin := fun name => guarded id .addMixin (inner.addMixin name)
    removeMixin := fun name =>
      guarded id .removeMixin (inner.removeMixin name)
    setPrimaryType := fun name =>
      guarded id .setPrimaryType (inner.setPrimaryType name)
    setProperty := fun name v =>
      guarded id .setProperty (inner.setProperty name v)
    setMultiProperty := fun name vs =>
      guarded id .setMultiProperty (inner.setMultiProperty name vs)
    removeProperty := fun name =>
      guarded id .removeProperty (inner.removeProperty name) }

/-- Sets or clears the fault of a call. -/
def setFault (id : Nat) (method : Method) (e? : Option RepositoryError) :
    Call Unit :=
  Act.update <| Repository.modifyFaults id fun f =>
    ⟨fun m => if m = method then e? else f.failure? m, f.ghosts⟩

/-- Adds a ghost name. -/
def addGhost (id : Nat) (name : String) : Call Unit :=
  Act.update <| Repository.modifyFaults id fun f =>
    ⟨f.failure?, f.ghosts ++ [name]⟩

end ContentProperties.Memory
