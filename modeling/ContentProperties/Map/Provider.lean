/-
What the maps of one resource provider share: the options that they
follow, the loader that decides which types may be read back into
objects, the namespace prefixes once they have been asked for, and the
ways in which their operations fail.
-/
import ContentProperties.Object.Stream
import ContentProperties.Repository.World

namespace ContentProperties

-- ================================================= options

/-- The switches of a map. -/
structure MapOptions where
  /-- Path keys are tried in the ISO 9075 encoding first, and storage
  names in that encoding are decoded into keys. -/
  legacyPathEncoding : Bool
  /-- Bytes to buffer while the text of a binary is read. It is never
  zero, and has no influence on the text while there can be such a
  buffer. -/
  streamBufferSize : Nat
  /-- The namespace prefixes are asked for once and not for every key. -/
  cacheNamespacePrefixes : Bool
  /-- The resource type is the primary type unless it is set. -/
  synthesizeResourceType : Bool
  deriving DecidableEq

namespace MapOptions

/-- The options unless others are given. -/
def default : MapOptions := ⟨true, 2048, true, true⟩

/-- Sets the buffer size; zero keeps the size there is. -/
def withStreamBufferSize (o : MapOptions) (bytes : Nat) : MapOptions :=
  if 0 < bytes then { o with streamBufferSize := bytes } else o

end MapOptions

-- ================================================= providers

/-- What maps are created with. -/
structure Provider where
  options : MapOptions
  loader : Option TypeLoader

/-- The prefixes a provider has cached, if it has asked for them. -/
abbrev PrefixCache := Option (List String)

-- ================================================= failures

/-- Why an operation of a map failed. -/
inductive MapError where
  /-- A key, a value or a write that is not possible. -/
  | invalidArgument (text : String)
  /-- The repository failed in the middle of an operation. -/
  | state (context : String) (cause : RepositoryError)
  /-- The map is read-only, or the operation exists in name only. -/
  | unsupported (operation : String)
  /-- The repository failed to look up a property. -/
  | repository (cause : RepositoryError)
  /-- A conversion was broken off. -/
  | aborted (cause : Abort)
  deriving DecidableEq

/-- The text of the error. -/
def MapError.message : MapError → String
  | .invalidArgument text => "invalid argument: " ++ text
  | .state context cause => context ++ ": " ++ cause.message
  | .unsupported operation => "unsupported operation: " ++ operation
  | .repository cause => cause.message
  | .aborted cause => cause.message

end ContentProperties
