/-
Properties that answer as they are told. A stub belongs to no node: its
answers are fixed when it is made, and it counts how often it is asked
for each. With it the questions that a conversion asks can be seen.
-/
import ContentProperties.Repository.Node

namespace ContentProperties.Stub

/-- How often a stub was asked. -/
structure Calls where
  value : Nat
  length : Nat
  lengths : Nat
  deriving DecidableEq

/-- No questions yet. -/
def Calls.none : Calls := ⟨0, 0, 0⟩

/-- What a stub answers. -/
structure Answers where
  value : Except RepositoryError Value
  length : Except RepositoryError Nat
  lengths : Except RepositoryError (List Nat)

/-- Gives an answer, once the question is counted. -/
def answer {α : Type} (count : Calls → Calls)
    (result : Except RepositoryError α) : Act Calls α := do
  Act.update count
  match result with
  | .ok a => pure a
  | .error e => throw e

/-- A property with the given answers. -/
def property (name : String) (type : PropertyType) (multiple : Bool)
    (answers : Answers) : Property Calls where
  name := name
  type := type
  multiple := multiple
  value := answer (fun c => ⟨c.value + 1, c.length, c.lengths⟩) answers.value
  length :=
    answer (fun c => ⟨c.value, c.length + 1, c.lengths⟩) answers.length
  lengths :=
    answer (fun c => ⟨c.value, c.length, c.lengths + 1⟩) answers.lengths

/-- A session without namespaces, whose binaries are kept in memory. -/
def session : Session Calls where
  namespacePrefixes := pure []
  createBinary bytes := Act.newBinary (.buffered bytes)

end ContentProperties.Stub
