/-
Object streams read back. The stream of an object opens with the header
that readers check, and what follows is the printed envelope of the type
and the data. That the envelope is read as it was printed is a matter of
JSON, and `ObjectValue.ReadsBack` says it of one object; then the loader
alone decides whether the object comes back.

# One object to a stream

An envelope is read up to the end of its source, or it is not read at all
(`rest_of_envelope`), and where nothing is left there is no envelope
(`envelope_nil`). So a stream that has yielded its envelope is empty, and
stays empty however often it is read again (`readObject_afterReads`); of
the readings in between nothing has to be known.
-/
import ContentProperties.Object.Stream

namespace ContentProperties

-- ============================================================== binaries

/-- The binary opens, each time, as a source of these bytes. -/
def Binary.Delivers (b : Binary) (bytes : List UInt8) : Prop :=
  ∀ s, b.openReader s = (.ok ⟨bytes, false⟩, s)

/-- Content in memory is delivered, and that of a provider that neither
refuses to open nor breaks off, whatever length it claims. A one-shot
stream is not: it does not open a second time. -/
theorem Binary.delivers_iff {b : Binary} {bytes : List UInt8} :
    b.Delivers bytes ↔ b.source = .buffered bytes ∨
      ∃ claimed, b.source = .provided claimed bytes false false := by
  constructor
  · intro h
    cases hsource : b.source with
    | buffered content =>
        have hopen := h Streams.empty
        simp only [openReader, hsource] at hopen
        cases hopen
        exact .inl rfl
    | oneShot content =>
        have hopen := h ⟨0, [b.id]⟩
        simp [openReader, hsource] at hopen
        cases hopen
    | provided claimed content failsToOpen failsAtEnd =>
        have hopen := h Streams.empty
        simp only [openReader, hsource] at hopen
        cases failsToOpen with
        | true => cases hopen
        | false =>
            cases hopen
            exact .inr ⟨claimed, rfl⟩
  · rintro (hsource | ⟨claimed, hsource⟩) s
    · simp only [openReader, hsource]
    · simp [openReader, hsource]

-- ====================================================== the end of input

namespace Json.Read

variable {α β : Type}

/-- A sequence of readings that yielded something went through the
first. -/
theorem some_of_bind {x : Read α} {f : α → Read β} {i k : Input} {b : β}
    (h : (x >>= f) i = (some b, k)) :
    ∃ a j, x i = (some a, j) ∧ f a j = (some b, k) := by
  rcases hx : x i with ⟨_ | a, j⟩ <;>
    simp only [bind, OptionT.bind, OptionT.mk, StateT.bind, hx] at h
  · cases h
  · exact ⟨a, j, rfl, h⟩

/-- Nothing is left where no byte comes behind the white space. -/
theorem rest_of_skipBlanks {i k : Input}
    (h : skipBlanks i = (some none, k)) : k.rest = [] := by
  unfold skipBlanks at h
  obtain ⟨_, j, -, h⟩ := some_of_bind h
  unfold look at h
  split at h
  · next hrest =>
    rw [← (Prod.mk.inj h).2]
    exact hrest
  · cases h

theorem rest_of_atEnd {i k : Input} (h : atEnd i = (some (), k)) :
    k.rest = [] := by
  unfold atEnd at h
  obtain ⟨b?, j, hblanks, h⟩ := some_of_bind h
  cases b? with
  | some b => cases h
  | none =>
      cases h
      exact rest_of_skipBlanks hblanks

end Json.Read

namespace ObjectValue

open Json Json.Read

/-- An envelope is read up to the end. -/
theorem rest_of_envelope {i k : Input} {parts : String × Json}
    (h : envelope i = (some parts, k)) : k.rest = [] := by
  have hlast : ∀ {read : String × Json} {j : Input},
      (do atEnd; pure read : Read (String × Json)) j = (some parts, k) →
        k.rest = [] := by
    intro read j h
    obtain ⟨_, l, hend, h⟩ := some_of_bind h
    cases h
    exact rest_of_atEnd hend
  unfold envelope at h
  obtain ⟨b?, j, -, h⟩ := some_of_bind h
  cases b? with
  | none => cases h
  | some b =>
      -- an object, an array or neither, and the end after any of them
      dsimp only at h
      split at h
      · obtain ⟨_, _, -, h⟩ := some_of_bind h
        obtain ⟨_, _, -, h⟩ := some_of_bind h
        obtain ⟨_, _, -, h⟩ := some_of_bind h
        exact hlast h
      split at h
      · obtain ⟨_, _, -, h⟩ := some_of_bind h
        obtain ⟨_, _, -, h⟩ := some_of_bind h
        exact hlast h
      · obtain ⟨_, _, -, h⟩ := some_of_bind h
        exact hlast h

/-- Where nothing is left there is no envelope, and nothing is left
after. -/
theorem envelope_nil (failsAtEnd : Bool) :
    envelope ⟨[], false, failsAtEnd⟩ = (none, ⟨[], false, failsAtEnd⟩) := by
  cases failsAtEnd <;> rfl

/-- The printed envelope of the object is read as the type and data that
it was printed from. -/
def ReadsBack (o : ObjectValue) : Prop :=
  ∀ data, o.payload = some data →
    (envelope ⟨Text.utf8Bytes
      (String.ofList (envelopeChars o.typeName data)), false, false⟩).1 =
        some (o.typeName, data)

/-- Whether an envelope was read as the type `T` and no data. -/
def holdsNull : Option (String × Json) → Bool
  | some (name, .null) => name == "T"
  | _ => false

theorem eq_of_holdsNull {e : Option (String × Json)}
    (h : holdsNull e = true) : e = some ("T", .null) := by
  rcases e with _ | ⟨name, json⟩
  · cases h
  · cases json with
    | null => rw [show name = "T" from eq_of_beq h]
    | _ => cases h

/-- An object without any data reads back. -/
theorem readsBack_null : ReadsBack ⟨"T", some .null⟩ := by
  have hread : holdsNull (envelope ⟨Text.utf8Bytes
      (String.ofList (envelopeChars "T" .null)), false, false⟩).1 =
        true := by decide +kernel
  intro data hdata
  cases hdata
  rw [eq_of_holdsNull hread]

end ObjectValue

namespace ObjectStream

variable {b : Binary} {loader : Option TypeLoader}

-- =============================================================== opening

/-- The header is passed over where it is. -/
theorem passHeader_streamHeader (rest : List UInt8) (failsAtEnd : Bool) :
    passHeader ⟨ObjectValue.streamHeader ++ rest, failsAtEnd⟩ =
      .ok ⟨rest, failsAtEnd⟩ := by
  have hlen : ¬(ObjectValue.streamHeader ++ rest).length <
      ObjectValue.streamHeader.length := by
    rw [List.length_append]
    omega
  unfold passHeader
  rw [if_neg hlen, List.take_left, if_pos rfl, List.drop_left]

/-- Content that does not start with the header has a bad one, be it
shorter or other. -/
theorem passHeader_of_other {content : List UInt8}
    (h : ¬ObjectValue.streamHeader <+: content) :
    passHeader ⟨content, false⟩ = .error .badHeader := by
  have hother : content.take ObjectValue.streamHeader.length ≠
      ObjectValue.streamHeader := by
    intro heq
    exact h (List.prefix_iff_eq_take.2 heq.symm)
  unfold passHeader
  by_cases hshort : content.length < ObjectValue.streamHeader.length
  · rw [if_pos hshort]
    rfl
  · rw [if_neg hshort, if_neg hother]

theorem ofBinary_of_delivers {bytes : List UInt8} (hb : b.Delivers bytes)
    (s : Streams) :
    ofBinary b loader s =
      ((passHeader ⟨bytes, false⟩).map (⟨·, loader⟩), s) := by
  unfold ofBinary
  rw [hb s]

/-- Content that does not start with the header does not open. -/
theorem ofBinary_of_other {content : List UInt8}
    (hb : b.Delivers content) (h : ¬ObjectValue.streamHeader <+: content)
    (s : Streams) : ofBinary b loader s = (.error .badHeader, s) := by
  rw [ofBinary_of_delivers hb, passHeader_of_other h]
  rfl

-- =============================================================== reading

/-- What a loader makes of an object that was read. -/
def loaded (loader : Option TypeLoader) (o : ObjectValue) :
    Except ObjectStreamError ObjectValue :=
  if resolves loader o.typeName then .ok o
  else .error (.unknownType o.typeName)

/-- An envelope is read as an object, if the loader knows its type, and
nothing is left behind it. -/
theorem readObject_of_envelope {name : String} {data : Json}
    {rest : List UInt8}
    (hread : (ObjectValue.envelope ⟨rest, false, false⟩).1 =
      some (name, data)) :
    (readObject ⟨⟨rest, false⟩, loader⟩).1 =
        loaded loader ⟨name, some data⟩ ∧
      (readObject ⟨⟨rest, false⟩, loader⟩).2.reader.rest = [] := by
  rcases henvelope : ObjectValue.envelope ⟨rest, false, false⟩ with
    ⟨parts, input⟩
  rw [henvelope] at hread
  cases hread
  have hend : input.remaining = [] := by
    unfold Json.Input.remaining
    rw [ObjectValue.rest_of_envelope henvelope]
    cases input.looked <;> rfl
  unfold readObject loaded
  rw [henvelope]
  dsimp only
  split
  · exact ⟨rfl, hend⟩
  · exact ⟨rfl, hend⟩

/-- The stream after its object was asked for some times. -/
def afterReads (stream : ObjectStream) : Nat → ObjectStream
  | 0 => stream
  | count + 1 => (stream.afterReads count).readObject.2

/-- A stream of which nothing is left yields nothing, and nothing is left
of it. -/
theorem readObject_of_rest_nil {stream : ObjectStream}
    (h : stream.reader.rest = []) :
    stream.readObject.1 = .error .malformed ∧
      stream.readObject.2.reader.rest = [] := by
  unfold readObject
  rw [h, ObjectValue.envelope_nil]
  exact ⟨rfl, rfl⟩

/-- A stream of which nothing is left after its first reading yields
nothing ever after. -/
theorem readObject_afterReads {stream : ObjectStream}
    (h : stream.readObject.2.reader.rest = []) (count : Nat) :
    (stream.afterReads (count + 1)).readObject.1 = .error .malformed := by
  have hrest : (stream.afterReads (count + 1)).reader.rest = [] := by
    induction count with
    | zero => exact h
    | succ count ih => exact (readObject_of_rest_nil ih).2
  exact (readObject_of_rest_nil hrest).1

/-- A binary with the stream of an object opens as a stream that yields
the object, if the loader knows its type, and nothing after it. -/
theorem ofBinary_of_streamBytes {o : ObjectValue} {bytes : List UInt8}
    (hbytes : o.streamBytes? = some bytes) (ho : o.ReadsBack)
    (hb : b.Delivers bytes) (loader : Option TypeLoader) :
    ∃ stream, (∀ s, ofBinary b loader s = (.ok stream, s)) ∧
      stream.readObject.1 = loaded loader o ∧
      stream.readObject.2.reader.rest = [] := by
  obtain ⟨name, payload⟩ := o
  cases payload with
  | none => cases hbytes
  | some data =>
      cases hbytes
      refine ⟨⟨⟨_, false⟩, loader⟩, ?_,
        readObject_of_envelope (ho data rfl)⟩
      intro s
      rw [ofBinary_of_delivers hb, passHeader_streamHeader]
      rfl

end ObjectStream

end ContentProperties
