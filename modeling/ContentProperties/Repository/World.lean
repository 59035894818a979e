/-
What repository calls act on. A world is the state of all binary streams
together with the state of the repository behind the nodes, of which
nothing is assumed. A call may fail, and keeps what it changed until
then.
-/
import ContentProperties.Binary.Basic

namespace ContentProperties

-- ================================================= failures

/-- Why the repository refused a call. -/
inductive RepositoryError where
  /-- The item does not exist. -/
  | notFound (text : String)
  /-- The session may not read or write the item. -/
  | accessDenied (text : String)
  /-- A stored value has not the expected shape. -/
  | valueFormat (text : String)
  /-- The write goes against a node type or a protection. -/
  | constraintViolation (text : String)
  /-- Binary content could not be read. -/
  | io (cause : IoError)
  | other (text : String)
  deriving DecidableEq

/-- The text of the error. -/
def RepositoryError.message : RepositoryError → String
  | .notFound text => "item not found: " ++ text
  | .accessDenied text => "access denied: " ++ text
  | .valueFormat text => "value format: " ++ text
  | .constraintViolation text => "constraint violation: " ++ text
  | .io cause => "repository I/O: " ++ cause.message
  | .other text => text

-- ================================================= worlds and calls

/-- The state that calls act on. -/
structure World (σ : Type) where
  /-- What all binary sources share. -/
  streams : Streams
  /-- The state of the repository. -/
  repo : σ

/-- A call: it acts on the world and yields a result or an error. -/
abbrev Act (σ : Type) := ExceptT RepositoryError (StateM (World σ))

namespace Act

variable {σ α : Type}

/-- A call that only reads the state of the repository. -/
def look (f : σ → α) : Act σ α := fun w => (.ok (f w.repo), w)

/-- A call that changes the state of the repository. -/
def update (f : σ → σ) : Act σ Unit := fun w =>
  (.ok (), ⟨w.streams, f w.repo⟩)

/-- Creates a handle on a new source. -/
def newBinary (source : Source) : Act σ Binary := fun w =>
  let (b, streams) := Binary.create source w.streams
  (.ok b, ⟨streams, w.repo⟩)

/-- Reads the whole content of a binary. -/
def readAll (b : Binary) : Act σ (List UInt8) := fun w =>
  match b.readAll w.streams with
  | (.ok bytes, streams) => (.ok bytes, ⟨streams, w.repo⟩)
  | (.error cause, streams) => (.error (.io cause), ⟨streams, w.repo⟩)

/-- What a call yields, with a failure as a value. -/
def attempt (act : Act σ α) : StateM (World σ) (Except RepositoryError α) :=
  act

end Act

end ContentProperties
