/-
Entries: property values as a map holds them, and their conversion. An
entry is either a property that was read, or a value about to be
written. A property that holds a binary is asked for its value each
time, any other only once.

Most results of conversions are values; the stored form, the property and
the reader of an object stream are results of their own kind, and an
array is converted item by item.

A conversion that fails yields nothing, and in an array drops the item.
One that is broken off, for a timestamp without a counterpart in UTC or
for content without a buffer, ends the whole conversion.
-/
import ContentProperties.Map.Provider
import ContentProperties.Object.Stream
import ContentProperties.Repository.Node
import ContentProperties.Value.Converter
import ContentProperties.Value.Kind

namespace ContentProperties

variable {σ : Type}

-- ================================================= results

/-- What a value was converted to. -/
inductive Converted (σ : Type) where
  | value (v : Value)
  | stored (v : StoredValue)
  | property (p : Property σ)
  | stream (s : ObjectStream)
  | array (items : List (Converted σ))

namespace Converted

/-- The value, if the result is one. -/
def asValue? : Converted σ → Option Value
  | .value v => some v
  | _ => none

mutual

/-- The result as a value, if it can be one: a stored value is read back,
a property is asked for its value, and a stream has none. -/
def toValue? : Converted σ → StateM (World σ) (Option Value)
  | .value v => pure (some v)
  | .stored v => pure (some v.toValue)
  | .property p => do
      match ← Act.attempt p.value with
      | .ok v => pure (some v)
      | .error _ => pure none
  | .stream _ => pure none
  | .array items => do
      let vs ← toValues items
      pure (some (.array vs))

/-- The results that can be values, as values. -/
def toValues : List (Converted σ) → StateM (World σ) (List Value)
  | [] => pure []
  | c :: rest => do
      let v? ← toValue? c
      let vs ← toValues rest
      pure (v?.toList ++ vs)

end

end Converted

-- ================================================= attempts

/-- A conversion under way: it may yield nothing, or be broken off. -/
abbrev Attempt (σ : Type) :=
  OptionT (ExceptT Abort (StateM (World σ)))

namespace Attempt

variable {α : Type}

/-- Yields nothing. -/
def nothing : Attempt σ α := OptionT.fail

/-- Is broken off. -/
def abort (cause : Abort) : Attempt σ α := fun w => (.error cause, w)

/-- A call, which yields nothing if it fails. -/
def ofAct (act : Act σ α) : Attempt σ α := fun w =>
  match act w with
  | (.ok a, w) => (.ok (some a), w)
  | (.error _, w) => (.ok none, w)

/-- A conversion of a scalar, which yields nothing if it fails. -/
def ofConversion : Conversion α → Attempt σ α
  | .ok a => pure a
  | .error _ => nothing

/-- A conversion of a scalar to an instant. -/
def ofDate (c : Except Abort (Conversion α)) : Attempt σ α :=
  match c with
  | .ok conversion => ofConversion conversion
  | .error cause => abort cause

/-- The content of a binary, opened; nothing if it does not open. -/
def openReader (b : Binary) : Attempt σ ByteReader := fun w =>
  match b.openReader w.streams with
  | (.ok reader, streams) => (.ok (some reader), ⟨streams, w.repo⟩)
  | (.error _, streams) => (.ok none, ⟨streams, w.repo⟩)

/-- The stream that a binary opens as, if it is one. -/
def openStream (b : Binary) (loader : Option TypeLoader) :
    Attempt σ (Except ObjectStreamError ObjectStream) := fun w =>
  let (opened, streams) := ObjectStream.ofBinary b loader w.streams
  (.ok (some opened), ⟨streams, w.repo⟩)

/-- What an attempt yields, with nothing as a value. -/
def result? (attempt : Attempt σ α) : Attempt σ (Option α) := fun w =>
  match attempt w with
  | (.ok a?, w) => (.ok (some a?), w)
  | (.error e, w) => (.error e, w)

end Attempt

-- ================================================= entries

/-- Where the value of an entry is. -/
inductive Origin (σ : Type) where
  /-- In a property, with the value unless that is a binary. -/
  | stored (property : Property σ) (value? : Option Value)
  /-- In the hands of a writer. -/
  | pending (value : Value)

/-- A property value as a map holds it. -/
structure Entry (σ : Type) where
  origin : Origin σ
  /-- Whether the value counts as any number of values. -/
  isArray : Bool

namespace Entry

/-- The entry of a property. -/
def ofProperty (p : Property σ) : Act σ (Entry σ) := do
  if p.type = .binary then pure ⟨.stored p none, p.multiple⟩
  else
    let v ← p.value
    pure ⟨.stored p (some v), p.multiple⟩

/-- Checks that a value has a stored form. Binaries have one, and are not
touched. -/
def checkStorable (session : Session σ) (v : Value) :
    ExceptT MapError (StateM (World σ)) Unit :=
  match v with
  | .binary _ => pure ()
  | v => fun w =>
      match session.store? v w with
      | (.ok (some _), w) => (.ok (), w)
      | (.ok none, w) =>
          (.error (.invalidArgument
            ("value can't be stored in the repository: " ++ v.toText)), w)
      | (.error e, w) => (.error (.repository e), w)

/-- Checks values one after the other. -/
def checkAllStorable (session : Session σ) :
    List Value → ExceptT MapError (StateM (World σ)) Unit
  | [] => pure ()
  | v :: rest => do
      checkStorable session v
      checkAllStorable session rest

/-- The entry of a value to be written, which must have a stored form; so
must every item of an array. -/
def ofValue (session : Session σ) (v : Value) :
    ExceptT MapError (StateM (World σ)) (Entry σ) := do
  match v with
  | .array items => checkAllStorable session items
  | single => checkStorable session single
  pure ⟨.pending v, v.isArray⟩

/-- The property behind the entry, if there is one. -/
def property? (e : Entry σ) : Option (Property σ) :=
  match e.origin with
  | .stored p _ => some p
  | .pending _ => none

/-- The value of the entry. -/
def value (e : Entry σ) : Act σ Value :=
  match e.origin with
  | .stored _ (some v) => pure v
  | .stored p none => p.value
  | .pending v => pure v

-- ================================================= scalar targets

/-- Converts a value that does not have the target type already. -/
def convertPlain (session : Session σ) (e : Entry σ) (v : Value)
    (target : ValueType) : Attempt σ (Converted σ) :=
  let c := Converter.of v
  let yield (conversion : Conversion Value) : Attempt σ (Converted σ) :=
    .value <$> Attempt.ofConversion conversion
  match target with
  | .string => pure (.value (.string c.toText))
  | .byte => yield (.byte <$> c.toByte)
  | .short => yield (.short <$> c.toShort)
  | .int => yield (.int <$> c.toInt)
  | .long => yield (.long <$> c.toLong)
  | .float => yield (.float <$> c.toFloat)
  | .double => yield (.double <$> c.toDouble)
  | .decimal => yield (.decimal <$> c.toDecimal)
  | .bool => yield (.bool <$> c.toBool)
  | .char => yield (.char <$> c.toChar)
  | .date => (fun i => .value (.date i)) <$> Attempt.ofDate c.toDate
  | .calendar => yield (.calendar <$> c.toCalendar)
  | .zoned => yield (.zoned <$> c.toZoned)
  | .stored => do
      match ← Attempt.ofAct (session.store? v) with
      | some stored => pure (.stored stored)
      | none => Attempt.nothing
  | .property =>
      match e.property? with
      | some p => pure (.property p)
      | none => Attempt.nothing
  | _ => Attempt.nothing

-- ================================================= binaries

/-- The length of the binary at the given place of a property, or of the
only one. -/
def binaryLength (p : Property σ) : Option Nat → Act σ Nat
  | none => p.length
  | some place => do
      let lengths ← p.lengths
      match lengths[place]? with
      | some n => pure n
      | none =>
          throw (.valueFormat
            (p.name ++ " has no value at index " ++ Numeric.intText place))

/-- The content of a binary as a text. Between opening and reading come
two buffers, one of the given size and one of the claimed length. -/
def textIn (bufferSize : Nat) (b : Binary) : Attempt σ String := do
  let reader ← Attempt.openReader b
  if bufferSize ≤ bufferLimit && b.source.fitsBuffer then
    match reader.drain with
    | .ok bytes => pure (Text.utf8Lossy bytes)
    | .error _ => Attempt.nothing
  else Attempt.abort .bufferOverflow

/-- Whether a binary is read as an object to reach the target. -/
def readsObject : ValueType → Bool
  | .serializable | .object _ | .bool | .char | .date | .calendar
  | .zoned => true
  | _ => false

/-- The object in a binary, if there is one. -/
def objectIn (provider : Provider) (b : Binary) :
    Attempt σ (Option ObjectValue) := do
  match ← Attempt.openStream b provider.loader with
  | .ok stream => pure stream.readObject.1.toOption
  | .error _ => pure none

/-- Converts a binary. As a number it is its length, which only a
property knows; as a string its content; as most others the object it
holds, if it holds one. -/
def convertBinary (session : Session σ) (provider : Provider) (e : Entry σ)
    (place : Option Nat) (b : Binary) (target : ValueType) :
    Attempt σ (Converted σ) := do
  if target = .objectStream then
    match ← Attempt.openStream b provider.loader with
    | .ok stream => pure (.stream stream)
    | .error _ => convertPlain session e (.binary b) target
  else if target.isNumeric then
    match e.property? with
    | none => Attempt.nothing
    | some p =>
        let length ← Attempt.ofAct (binaryLength p place)
        convertPlain session e (.long (Int64.ofNat length)) target
  else if target = .string then
    let text ← textIn provider.options.streamBufferSize b
    pure (.value (.string text))
  else if readsObject target then
    match ← objectIn provider b with
    | some o =>
        if target.isInstance (.object o) then pure (.value (.object o))
        else convertPlain session e (.object o) target
    | none => convertPlain session e (.binary b) target
  else convertPlain session e (.binary b) target

-- ================================================= conversion

/-- Converts one value to a target, given its place in an array. -/
def convertScalar (session : Session σ) (provider : Provider) (e : Entry σ)
    (place : Option Nat) (v : Value) (target : ValueType) :
    Attempt σ (Converted σ) :=
  if target.isInstance v then pure (.value v)
  else
    match v with
    | .binary b => convertBinary session provider e place b target
    | v => convertPlain session e v target

/-- Converts the items of an array from a place on, dropping those that
yield nothing. -/
def convertItems (session : Session σ) (provider : Provider) (e : Entry σ)
    (target : ValueType) (place : Nat) :
    List Value → Attempt σ (List (Converted σ))
  | [] => pure []
  | v :: rest => do
      let c? ← (convertScalar session provider e (some place) v target).result?
      let cs ← convertItems session provider e target (place + 1) rest
      pure (c?.toList ++ cs)

/-- Converts an entry that has the given value. Any number of values become
an array item by item, and one value by their first. One value becomes an
array of at most one. -/
def attemptOf (session : Session σ) (provider : Provider) (e : Entry σ)
    (v : Value) (target : ValueType) : Attempt σ (Converted σ) :=
  if e.isArray then
    let items := match v with
      | .array items => items
      | single => [single]
    match target, items with
    | .array item, _ =>
        .array <$> convertItems session provider e item 0 items
    | _, first :: _ =>
        convertScalar session provider e (some 0) first target
    | _, [] => Attempt.nothing
  else
    match target with
    | .array item => do
        let c? ← (convertScalar session provider e none v item).result?
        pure (.array c?.toList)
    | _ => convertScalar session provider e none v target

/-- Converts an entry, once its value has been asked for. -/
def attempt (session : Session σ) (provider : Provider) (e : Entry σ)
    (target : ValueType) : Attempt σ (Converted σ) := do
  let v ← Attempt.ofAct e.value
  attemptOf session provider e v target

/-- Converts an entry: the result, if there is one. -/
def convert (session : Session σ) (provider : Provider) (e : Entry σ)
    (target : ValueType) :
    ExceptT Abort (StateM (World σ)) (Option (Converted σ)) :=
  (attempt session provider e target).run

end Entry

end ContentProperties
