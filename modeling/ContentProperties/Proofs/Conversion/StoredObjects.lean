/-
Objects that are kept in binaries. A property may hold the stream of an
object as a binary, and is asked for the object by a conversion. The
conversion opens the binary and reads the first object of the stream; if
that fails for whatever reason, it tries the binary as it is, and the
binary itself is never what was asked for. So the outcome depends on the
object in the binary alone (`run_convertScalar_of_objectIn`), and what
that object is depends on the header, the envelope and the loader.
-/
import ContentProperties.Proofs.Conversion.Attempts
import ContentProperties.Proofs.Object.Streams
import ContentProperties.Repository.Memory

namespace ContentProperties

variable {σ : Type}

namespace Entry

variable {session : Session σ} {provider : Provider} {e : Entry σ}
variable {b : Binary} {w w' : World σ}

-- ================================================ the object in a binary

/-- The object in the binary of its stream is found, if the loader knows
its type. -/
theorem run_objectIn {o : ObjectValue} {bytes : List UInt8}
    (hbytes : o.streamBytes? = some bytes) (ho : o.ReadsBack)
    (hb : b.Delivers bytes) (w : World σ) :
    (objectIn provider b).run w = (.ok (some
      (if ObjectStream.resolves provider.loader o.typeName then some o
        else none)), w) := by
  obtain ⟨stream, hopened, hread, -⟩ :=
    ObjectStream.ofBinary_of_streamBytes hbytes ho hb provider.loader
  have hopen : (Attempt.openStream b provider.loader).run w =
      (.ok (some (.ok stream)), w) := by
    rw [Attempt.run_openStream, hopened]
  unfold objectIn
  rw [Attempt.run_bind_of_some hopen]
  dsimp only
  rw [hread]
  unfold ObjectStream.loaded
  split <;> rfl

/-- A binary without the header does not open as an object stream. -/
theorem run_openStream_of_other {content : List UInt8}
    (hb : b.Delivers content) (h : ¬ObjectValue.streamHeader <+: content)
    (loader : Option TypeLoader) (w : World σ) :
    (Attempt.openStream b loader).run w =
      (.ok (some (.error .badHeader)), w) := by
  rw [Attempt.run_openStream, ObjectStream.ofBinary_of_other hb h]

/-- There is no object in a binary without the header. -/
theorem run_objectIn_of_other {content : List UInt8}
    (hb : b.Delivers content) (h : ¬ObjectValue.streamHeader <+: content)
    (w : World σ) :
    (objectIn provider b).run w = (.ok (some none), w) := by
  unfold objectIn
  rw [Attempt.run_bind_of_some
    (run_openStream_of_other hb h provider.loader w)]
  rfl

-- ========================================================== conversions

/-- The targets that ask a binary for the object in it. -/
def AsksForObject (target : ValueType) : Prop :=
  target = .serializable ∨ ∃ name, target = .object name

theorem AsksForObject.isArray {target : ValueType}
    (h : AsksForObject target) : target.isArray = false := by
  rcases h with rfl | ⟨name, rfl⟩ <;> rfl

/-- A binary converts to the object in it, if there is one and it has the
type that was asked for. -/
theorem run_convertScalar_of_objectIn {o? : Option ObjectValue}
    (hobject : (objectIn provider b).run w = (.ok (some o?), w'))
    {target : ValueType} (htarget : AsksForObject target)
    (place : Option Nat) :
    (convertScalar session provider e place (.binary b) target).run w =
      (.ok (o?.bind fun o => if target.isInstance (.object o) then
        some (.value (.object o)) else none), w') := by
  have hplain : ∀ v, convertPlain session e v target = Attempt.nothing := by
    intro v
    rcases htarget with rfl | ⟨name, rfl⟩ <;> rfl
  have hbinary : (convertScalar session provider e place (.binary b)
      target).run w =
        (convertBinary session provider e place b target).run w := by
    rcases htarget with rfl | ⟨name, rfl⟩ <;> rfl
  have hbranch : target ≠ .objectStream ∧ ¬target.isNumeric = true ∧
      target ≠ .string ∧ readsObject target = true := by
    rcases htarget with rfl | ⟨name, rfl⟩
    · decide
    · simp [ValueType.isNumeric, readsObject]
  obtain ⟨hstream, hnumber, hstring, hreads⟩ := hbranch
  rw [hbinary]
  unfold convertBinary
  rw [if_neg hstream, if_neg hnumber, if_neg hstring, if_pos hreads,
    Attempt.run_bind_of_some hobject]
  cases o? with
  | none =>
      dsimp only
      rw [hplain]
      rfl
  | some o =>
      dsimp only
      rw [Option.bind_some]
      by_cases hinstance : target.isInstance (.object o) = true
      · rw [if_pos hinstance, if_pos hinstance]
        rfl
      · rw [if_neg hinstance, if_neg hinstance, hplain]
        rfl

/-- A binary without the header does not convert to an object stream. -/
theorem run_convertScalar_objectStream {content : List UInt8}
    (hb : b.Delivers content) (h : ¬ObjectValue.streamHeader <+: content)
    (place : Option Nat) (w : World σ) :
    (convertScalar session provider e place (.binary b)
      .objectStream).run w = (.ok none, w) := by
  show (convertBinary session provider e place b .objectStream).run w = _
  unfold convertBinary
  rw [if_pos rfl, Attempt.run_bind_of_some
    (run_openStream_of_other hb h provider.loader w)]
  rfl

end Entry

-- ========================================================== properties

/-- A property with the binary as its only value. -/
structure Property.HoldsBinary (p : Property σ) (b : Binary) : Prop where
  type : p.type = .binary
  single : p.multiple = false
  value : ∀ w, p.value w = (.ok (.binary b), w)

/-- The entry of the property converts to this, if to anything, wherever
it is asked, and nothing else happens. -/
def Property.ConvertsTo (p : Property σ) (session : Session σ)
    (provider : Provider) (target : ValueType)
    (converted? : Option (Converted σ)) : Prop :=
  ∀ w, ∃ e, Entry.ofProperty p w = (.ok e, w) ∧
    e.convert session provider target w = (.ok converted?, w)

section Properties

variable {p : Property σ} {b : Binary} {target : ValueType}
variable {converted? : Option (Converted σ)}

/-- A property with one binary converts as the binary does. -/
theorem Property.HoldsBinary.convertsTo (hp : p.HoldsBinary b)
    {session : Session σ} {provider : Provider}
    (htarget : target.isArray = false)
    (h : ∀ (e : Entry σ) w, (Entry.convertScalar session provider e none
      (.binary b) target).run w = (.ok converted?, w)) :
    p.ConvertsTo session provider target converted? := by
  intro w
  obtain ⟨e, hrun, hsingle, hvalue, -⟩ := Entry.exists_ofProperty hp.value
  refine ⟨e, hrun w, ?_⟩
  rw [Entry.run_convert_single (hsingle.trans hp.single) (hvalue w) htarget]
  exact h e w

/-- A property with the stream of an object converts to the object, if
the loader knows its type and it has the type that was asked for. -/
theorem Property.HoldsBinary.convertsTo_object (hp : p.HoldsBinary b)
    {o : ObjectValue} {bytes : List UInt8}
    (hbytes : o.streamBytes? = some bytes) (ho : o.ReadsBack)
    (hb : b.Delivers bytes) (session : Session σ) (provider : Provider)
    (htarget : Entry.AsksForObject target) :
    p.ConvertsTo session provider target
      (if ObjectStream.resolves provider.loader o.typeName then
        if target.isInstance (.object o) then some (.value (.object o))
        else none
      else none) := by
  apply hp.convertsTo htarget.isArray
  intro e w
  rw [Entry.run_convertScalar_of_objectIn (Entry.run_objectIn hbytes ho hb w)
    htarget none]
  by_cases hloader : ObjectStream.resolves provider.loader o.typeName = true
  · rw [if_pos hloader, if_pos hloader]
    rfl
  · rw [if_neg hloader, if_neg hloader]
    rfl

/-- A property with a binary that is no object stream converts to no
object and to no stream. -/
theorem Property.HoldsBinary.convertsTo_none (hp : p.HoldsBinary b)
    {content : List UInt8} (hb : b.Delivers content)
    (h : ¬ObjectValue.streamHeader <+: content) (session : Session σ)
    (provider : Provider)
    (htarget : Entry.AsksForObject target ∨ target = .objectStream) :
    p.ConvertsTo session provider target none := by
  rcases htarget with htarget | rfl
  · apply hp.convertsTo htarget.isArray
    intro e w
    exact Entry.run_convertScalar_of_objectIn
      (Entry.run_objectIn_of_other hb h w) htarget none
  · apply hp.convertsTo rfl
    intro e w
    exact Entry.run_convertScalar_objectStream hb h none w

end Properties

/-- A property of a node in memory holds the binary that is stored. -/
theorem Memory.holdsBinary_single (name : String) (b : Binary) :
    Property.HoldsBinary (σ := σ)
      (StoredProperty.single name .binary (.binary b)).toProperty b :=
  ⟨rfl, rfl, fun _ => rfl⟩

-- ============================================================= the codec

/-- An object that has a stream has a serialized form. -/
theorem isSerializable_of_streamBytes? {o : ObjectValue}
    {bytes : List UInt8} (h : o.streamBytes? = some bytes) :
    (Value.object o).isSerializable = true := by
  obtain ⟨data, hdata, -⟩ := Option.map_eq_some_iff.1 h
  simp [Value.isSerializable, ObjectValue.isSerializable, hdata]

/-- The stream of an object is read as that object. A binary that
delivers it opens as an object stream, which yields the object first if
the loader knows its type, and nothing ever after. A property with such a
binary converts to the object, as something with a serialized form and as
an object of its type, exactly if the loader knows that type, and to no
object of another type. Content in memory that does not start with the
header does not open, and converts neither to an object nor to a
stream. -/
theorem object_stream_codec :
    (∀ (o : ObjectValue) (bytes : List UInt8) (b : Binary),
      o.streamBytes? = some bytes → o.ReadsBack → b.Delivers bytes →
      (∀ loader, ∃ stream,
        (∀ s, ObjectStream.ofBinary b loader s = (.ok stream, s)) ∧
        stream.readObject.1 =
          (if ObjectStream.resolves loader o.typeName then .ok o
            else .error (.unknownType o.typeName)) ∧
        ∀ count, (stream.afterReads (count + 1)).readObject.1 =
          .error .malformed) ∧
      ∀ (p : Property σ) (session : Session σ) (provider : Provider),
        p.HoldsBinary b →
        (∀ target, target = .serializable ∨ target = .object o.typeName →
          p.ConvertsTo session provider target
            (if ObjectStream.resolves provider.loader o.typeName then
              some (.value (.object o)) else none)) ∧
        ∀ name, name ≠ o.typeName →
          p.ConvertsTo session provider (.object name) none) ∧
    ∀ (content : List UInt8) (b : Binary),
      b.source = .buffered content →
      ¬ObjectValue.streamHeader <+: content →
      (∀ loader s,
        ObjectStream.ofBinary b loader s = (.error .badHeader, s)) ∧
      ∀ (p : Property σ) (session : Session σ) (provider : Provider),
        p.HoldsBinary b →
        p.ConvertsTo session provider .serializable none ∧
        (∀ name, p.ConvertsTo session provider (.object name) none) ∧
        p.ConvertsTo session provider .objectStream none := by
  constructor
  · intro o bytes b hbytes ho hb
    constructor
    · intro loader
      obtain ⟨stream, hopen, hread, hrest⟩ :=
        ObjectStream.ofBinary_of_streamBytes hbytes ho hb loader
      exact ⟨stream, hopen, hread, ObjectStream.readObject_afterReads hrest⟩
    · intro p session provider hp
      constructor
      · intro target htarget
        have hasks : Entry.AsksForObject target := by
          rcases htarget with rfl | rfl
          · exact .inl rfl
          · exact .inr ⟨_, rfl⟩
        have hinstance : target.isInstance (.object o) = true := by
          rcases htarget with rfl | rfl
          · exact isSerializable_of_streamBytes? hbytes
          · simp [ValueType.isInstance]
        have h := hp.convertsTo_object hbytes ho hb session provider hasks
        rw [if_pos hinstance] at h
        exact h
      · intro name hname
        have h := hp.convertsTo_object hbytes ho hb session provider
          (.inr ⟨name, rfl⟩)
        have hother : ¬(ValueType.object name).isInstance (.object o) =
            true := by
          simpa [ValueType.isInstance] using Ne.symm hname
        rw [if_neg hother, ite_self] at h
        exact h
  · intro content b hb h
    have hdelivers : b.Delivers content := Binary.delivers_iff.2 (.inl hb)
    refine ⟨fun loader s =>
      ObjectStream.ofBinary_of_other hdelivers h s, ?_⟩
    intro p session provider hp
    refine ⟨?_, fun name => ?_, ?_⟩
    · exact hp.convertsTo_none hdelivers h session provider (.inl (.inl rfl))
    · exact hp.convertsTo_none hdelivers h session provider
        (.inl (.inr ⟨name, rfl⟩))
    · exact hp.convertsTo_none hdelivers h session provider (.inr rfl)

/-- An object without any data, in a property of a node in memory, with a
loader that refuses its type; and two bytes of a header. -/
theorem object_stream_codec_of_null :
    ∃ bytes, (⟨"T", some .null⟩ : ObjectValue).streamBytes? = some bytes ∧
      ObjectValue.ReadsBack ⟨"T", some .null⟩ ∧
      Binary.Delivers ⟨0, .buffered bytes⟩ bytes ∧
      (∃ stream, (∀ s, ObjectStream.ofBinary ⟨0, .buffered bytes⟩ none s =
          (.ok stream, s)) ∧
        stream.readObject.1 = .ok ⟨"T", some .null⟩ ∧
        (stream.afterReads 2).readObject.1 = .error .malformed) ∧
      (Memory.StoredProperty.single "a" .binary
        (.binary ⟨0, .buffered bytes⟩)).toProperty.ConvertsTo
          (Memory.session 0) ⟨.default, some fun _ => false⟩ .serializable
          none ∧
      ¬ObjectValue.streamHeader <+: [0xac, 0xed] ∧
      (Memory.StoredProperty.single "a" .binary
        (.binary ⟨1, .buffered [0xac, 0xed]⟩)).toProperty.ConvertsTo
          (Memory.session 0) ⟨.default, none⟩ .objectStream none := by
  have hnull := ObjectValue.readsBack_null
  have hshort : ¬ObjectValue.streamHeader <+: [0xac, 0xed] := by decide
  obtain ⟨hobject, hother⟩ := object_stream_codec (σ := Memory.Repository)
  obtain ⟨hstream, hconvert⟩ := hobject ⟨"T", some .null⟩ _ ⟨0, .buffered _⟩
    rfl hnull (Binary.delivers_iff.2 (.inl rfl))
  obtain ⟨stream, hopen, hread, hafter⟩ := hstream none
  obtain ⟨hserialized, -⟩ := hconvert _ (Memory.session 0)
    ⟨.default, some fun _ => false⟩ (Memory.holdsBinary_single "a" _)
  obtain ⟨-, hnone⟩ := hother [0xac, 0xed] ⟨1, .buffered _⟩ rfl hshort
  obtain ⟨-, -, hstreamNone⟩ := hnone _ (Memory.session 0) ⟨.default, none⟩
    (Memory.holdsBinary_single "a" _)
  exact ⟨_, rfl, hnull, Binary.delivers_iff.2 (.inl rfl),
    ⟨stream, hopen, hread, hafter 1⟩, hserialized _ (.inl rfl), hshort,
    hstreamNone⟩

end ContentProperties
