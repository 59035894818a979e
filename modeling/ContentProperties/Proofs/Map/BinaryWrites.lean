/-
Binaries that are written, and the texts that they are read back as. A
node keeps content in memory: a binary of known length as it is, and a
one-shot stream as a copy, for which it opens the stream. The map keeps
the handle that it was given. So a fresh map finds the text of the
content in either case, while the map that has written finds it only if
the handle can be opened again. The handle of a stream is used up by the
write itself (`text_of_put_binary`, `put_uses_up_stream`).
-/
import ContentProperties.Proofs.Map.FreshReads
import ContentProperties.Proofs.Map.ReadBack

namespace ContentProperties

/-- The binary has this content, in memory or in a stream that can be
opened once. -/
def Binary.Carries (b : Binary) (content : List UInt8) : Prop :=
  b.source = .buffered content ∨ b.source = .oneShot content

-- ============================================================ conversion

namespace Entry

variable {σ : Type} {session : Session σ} {provider : Provider}
variable {e : Entry σ} {b : Binary} {w : World σ} {streams : Streams}

/-- A single binary as a text: what opening it yields decides. -/
theorem run_convert_text (hsingle : e.isArray = false)
    (hvalue : e.value w = (.ok (.binary b), w)) :
    e.convert session provider .string w =
      (textIn provider.options.streamBufferSize b >>= fun text =>
        pure (.value (.string text)) : Attempt σ (Converted σ)).run w := by
  rw [run_convert_single hsingle hvalue rfl]
  rfl

/-- A binary that opens converts to the text of its content. -/
theorem run_convert_text_of_open {content : List UInt8}
    (hsingle : e.isArray = false)
    (hvalue : e.value w = (.ok (.binary b), w)) (hb : b.Carries content)
    (hsize : provider.options.streamBufferSize ≤ bufferLimit)
    (hopen : b.openReader w.streams = (.ok ⟨content, false⟩, streams)) :
    e.convert session provider .string w =
      (.ok (some (.value (.string (Text.utf8Lossy content)))),
        ⟨streams, w.repo⟩) := by
  have hfits : b.source.fitsBuffer = true := by
    rcases hb with h | h <;> rw [h] <;> rfl
  have hread : (Attempt.openReader b).run w =
      (.ok (some ⟨content, false⟩), ⟨streams, w.repo⟩) := by
    rw [Attempt.run_openReader, hopen]
  have htext : (textIn provider.options.streamBufferSize b :
      Attempt σ String).run w =
        (.ok (some (Text.utf8Lossy content)), ⟨streams, w.repo⟩) := by
    unfold textIn
    rw [Attempt.run_bind_of_some hread, if_pos (by simp [hsize, hfits])]
    rfl
  rw [run_convert_text hsingle hvalue, Attempt.run_bind_of_some htext]
  rfl

/-- A binary that does not open converts to nothing. -/
theorem run_convert_text_of_closed {cause : IoError}
    (hsingle : e.isArray = false)
    (hvalue : e.value w = (.ok (.binary b), w))
    (hopen : b.openReader w.streams = (.error cause, streams)) :
    e.convert session provider .string w =
      (.ok none, ⟨streams, w.repo⟩) := by
  have hread : (Attempt.openReader b).run w =
      (.ok none, ⟨streams, w.repo⟩) := by
    rw [Attempt.run_openReader, hopen]
  have htext : (textIn provider.options.streamBufferSize b :
      Attempt σ String).run w = (.ok none, ⟨streams, w.repo⟩) := by
    unfold textIn
    rw [Attempt.run_bind_of_none hread]
  rw [run_convert_text hsingle hvalue, Attempt.run_bind_of_none htext]

end Entry

namespace Memory

open PropertyMap

variable {c : Site} {v : Surroundings} {s t : MapState Repository}
variable {b : Binary} {content : List UInt8}

-- ============================================================== the node

/-- Buffering a binary ends with its content in memory, and with the
stream opened if it is one. -/
theorem of_buffered_binary (hb : b.Carries content)
    {stored : StoredValue} {w u : World Repository}
    (h : buffered (.binary b) w = (.ok stored, u)) :
    ∃ copy : Binary, stored = .binary copy ∧
      copy.source = .buffered content ∧ u.repo = w.repo ∧
      (b.source = .oneShot content → b.id ∈ u.streams.consumed) := by
  rcases hb with hsource | hsource
  · have hlength : b.length? = some content.length := by
      rw [Binary.length?, hsource]
      rfl
    simp only [buffered, hlength] at h
    cases h
    refine ⟨b, rfl, hsource, rfl, fun honce => ?_⟩
    rw [hsource] at honce
    cases honce
  · have hlength : b.length? = none := by
      rw [Binary.length?, hsource]
      rfl
    simp only [buffered, hlength] at h
    obtain ⟨bytes, r, hread, h⟩ := ok_of_run_bind h
    -- A stream that was opened before is not read.
    have hread' : bytes = content ∧
        r = ⟨⟨w.streams.nextId, b.id :: w.streams.consumed⟩, w.repo⟩ := by
      unfold Act.readAll Binary.readAll Binary.openReader at hread
      by_cases hused : b.id ∈ w.streams.consumed
      · simp only [hsource, run_bind, List.contains_iff_mem, hused, if_true]
          at hread
        cases hread
      · simp only [hsource, run_bind, List.contains_iff_mem, hused, if_false]
          at hread
        cases hread
        exact ⟨rfl, rfl⟩
    obtain ⟨rfl, rfl⟩ := hread'
    cases h
    exact ⟨_, rfl, rfl, rfl, fun _ => List.mem_cons_self⟩

/-- Setting a property to a binary keeps its content, and opens the stream
if it is one. -/
theorem of_setProperty_binary {id : Nat} {name : String}
    (hp : name ≠ primaryTypeName) (hm : name ≠ mixinTypesName)
    (hb : b.Carries content) {w u : World Repository}
    (h : setProperty id name (.binary b) w = (.ok (), u)) :
    ∃ copy : Binary, copy.source = .buffered content ∧
      contentOf u = (contentOf w).withProperty id
        (.single name .binary (.binary copy)) ∧
      (b.source = .oneShot content → b.id ∈ u.streams.consumed) := by
  have hcount := keeps_count id (fun n => { n with writes := n.writes + 1 }) w
  unfold setProperty at h
  rw [run_bind_of_ok (run_checkWritable hp hm w)] at h
  rw [run_bind_of_ok (show countWrite id w = (.ok (), (countWrite id w).2)
    from rfl)] at h
  obtain ⟨stored, r, hbuffered, h⟩ := ok_of_run_bind h
  obtain ⟨copy, rfl, hcopy, hrepo, hused⟩ := of_buffered_binary hb hbuffered
  have hkept := run_keep id (.single name .binary (.binary copy)) r
  have hsame : contentOf r = contentOf w := by
    rw [contentOf, hrepo]
    exact hcount
  rw [hsame] at hkept
  cases h
  exact ⟨copy, hcopy, hkept, hused⟩

-- =============================================================== the put

/-- A put that was done has read everything first, which leaves the
surroundings, and has then been done by a map that has. -/
theorem readFully_of_put (hw : c.writable = true)
    (hwf : (c.node s).WellFormed) {key : String} (hk : IsPlain key)
    {x : Value} {old : Option Value} (hput : c.map.put key x s = (.ok old, t)) :
    ∃ r, r.cache.fullyRead = true ∧ c.surroundings r = c.surroundings s ∧
      c.map.put key x r = (.ok old, t) := by
  have hstart := put_of_readFully (m := c.map) (s := s) hw hk x
  rcases hfull : c.map.readFully s with ⟨e | _, r⟩
  · rw [hput, hfull] at hstart
    cases hstart
  rw [hput, hfull] at hstart
  exact ⟨r, fullyRead_of_readFully hfull,
    surroundings_of_shared (shared_readFully hwf hfull), hstart.symm⟩

/-- A binary that was put is in the slot as it was given, and on the node
with its content in memory. If it is a stream, it has been opened. -/
theorem of_put_binary (hw : c.writable = true) (hs : c.surroundings s = v)
    (hread : s.cache.fullyRead = true) {key : String} (hne : key ≠ "")
    (hpath : isPath key = false)
    (hp : storageName v.known key ≠ primaryTypeName)
    (hm : storageName v.known key ≠ mixinTypesName) (hb : b.Carries content)
    {old : Option Value} (hput : c.map.put key (.binary b) s = (.ok old, t)) :
    ∃ copy : Binary, copy.source = .buffered content ∧
      t.cache = ⟨s.cache.slots.set key (pendingSlot (.binary b)), true⟩ ∧
      c.surroundings t = ⟨v.repo.withProperty c.id
        (.single (storageName v.known key) .binary (.binary copy)),
        v.known⟩ ∧
      (b.source = .oneShot content → b.id ∈ t.world.streams.consumed) := by
  have hkey := plainKey_of_not_isPath hpath
  have hplain : IsPlain key := isPlain_of_not_isPath hne hpath
  have hchange : ∀ w, c.map.changeFor (storageName v.known key)
      (pendingSlot (.binary b)).entry w =
        (.ok (.property (storageName v.known key) (.binary b)), w) := by
    intro w
    unfold changeFor
    rw [if_neg hm, if_neg hp]
    rfl
  obtain ⟨u, hprepared, hu⟩ := run_prepare hs (fun _ => rfl) hchange
  have huv : c.surroundings u = v := (congrArg Prod.snd hu).trans hs
  rcases put_cases (m := c.map) hw hread hplain (.binary b) with
    ⟨_, _, -, hrun⟩ | ⟨_, _, _, _, _, -, -, hrun⟩ |
    ⟨entry, change, u', r, hprepared', hdone, hrun⟩
  · rw [hput] at hrun
    cases hrun
  · rw [hput] at hrun
    cases hrun
  rw [hkey, hprepared] at hprepared'
  cases hprepared'
  rw [hput, hkey] at hrun
  cases hrun
  rw [hkey] at hdone
  obtain ⟨w, hset, rfl⟩ := of_commit hdone
  obtain ⟨copy, hcopy, hcontent, hused⟩ := of_setProperty_binary hp hm hb hset
  refine ⟨copy, hcopy, rfl, ?_, hused⟩
  subst huv
  exact surroundings_of_content hcontent rfl

-- ============================================================= the reads

/-- A fresh map reads the text of content in memory. -/
theorem getAs?_text_fresh (hs : c.Fresh v s) {key : String} (hne : key ≠ "")
    (hpath : isPath key = false) (hprimary : key ≠ primaryTypeName)
    (hresource : key ≠ resourceTypeName)
    (hb : b.source = .buffered content)
    (hsize : c.options.streamBufferSize ≤ bufferLimit)
    (hstored : (v.repo.nodes c.id).property? (storageName v.known key) =
      some (.single (storageName v.known key) .binary (.binary b))) :
    (c.map.getAs? key .string s).1 =
      .ok (some (.value (.string (Text.utf8Lossy content)))) := by
  obtain ⟨u, -, hrun⟩ := run_readOr_fresh hs hpath (pure none)
  rw [hstored, ← read_eq_readOr hne hpath hprimary hresource] at hrun
  have hopen : ∀ streams, b.openReader streams =
      (.ok ⟨content, false⟩, streams) := Binary.delivers_iff.2 (.inl hb)
  have hconvert : ∀ w : World Repository, (StoredProperty.single
      (storageName v.known key) .binary (.binary b)).slot.entry.convert
        (session c.sid) c.provider .string w =
      (.ok (some (.value (.string (Text.utf8Lossy content)))), w) :=
    fun w => Entry.run_convert_text_of_open rfl
      (run_slot_value (fun _ => ⟨_, rfl⟩) w) (.inl hb) hsize (hopen w.streams)
  unfold getAs?
  rw [if_neg (by decide), plainKey_of_not_isPath hpath, run_bind_of_ok hrun]
  show (MapM.ofConversion ((StoredProperty.single _ _ _).slot.entry.convert
    (session c.sid) c.provider .string) _).1 = _
  rw [MapM.run_ofConversion, hconvert]

/-- A map that has read everything converts what is in the slot. -/
theorem getAs?_of_fullyRead (ht : t.cache.fullyRead = true) {key : String}
    (hne : key ≠ "") (hpath : isPath key = false) {slot : Slot Repository}
    (hslot : t.cache.slots.get? key = some slot) {target : ValueType}
    (htarget : target ≠ .unknown) :
    (c.map.getAs? key target t).1 = (MapM.ofConversion
      (slot.entry.convert (session c.sid) c.provider target) t).1 := by
  unfold getAs?
  rw [if_neg htarget, plainKey_of_not_isPath hpath,
    run_bind_of_ok (read_of_fullyRead ht hne hpath), hslot]
  rfl

/-- A binary that was put under a property key, by a map that had read
anything or nothing before. A fresh map reads it as the text of its
content. The map that has written it reads the same text if the content
is in memory, and nothing if it comes from a stream: the node opens the
stream to copy it, and the map keeps the stream and not the copy. -/
theorem text_of_put_binary (c : Site) (hw : c.writable = true)
    (s t : MapState Repository) (hwf : s.world.repo.WellFormed)
    (hsize : c.options.streamBufferSize ≤ bufferLimit) (key : String)
    (hne : key ≠ "") (hpath : isPath key = false)
    (hprimary : key ≠ primaryTypeName) (hmixins : key ≠ mixinTypesName)
    (hresource : key ≠ resourceTypeName) (b : Binary) (content : List UInt8)
    (hb : b.Carries content) (old : Option Value)
    (hput : c.map.put key (.binary b) s = (.ok old, t)) :
    (c.reader.map.getAs? key .string { t with cache := .empty }).1 =
        .ok (some (.value (.string (Text.utf8Lossy content)))) ∧
    (b.source = .buffered content → (c.map.getAs? key .string t).1 =
        .ok (some (.value (.string (Text.utf8Lossy content))))) ∧
    (b.source = .oneShot content →
      (c.map.getAs? key .string t).1 = .ok none) := by
  have hp := storageName_ne_typeName (by decide) (c.known s) hprimary
  have hm := storageName_ne_typeName (by decide) (c.known s) hmixins
  have hcontent : (contentOf s.world).WellFormed :=
    Repository.wellFormed_content.2 hwf
  obtain ⟨r, hfull, hr, hdone⟩ := readFully_of_put hw (hcontent c.id)
    (isPlain_of_not_isPath hne hpath) hput
  obtain ⟨copy, hcopy, hcache, ht, hused⟩ :=
    of_put_binary hw hr hfull hne hpath hp hm hb hdone
  have hread : t.cache.fullyRead = true := by rw [hcache]
  have hslot : t.cache.slots.get? key = some (pendingSlot (.binary b)) := by
    rw [hcache]
    exact Dict.get?_set_self _ _ _
  refine ⟨?_, fun hsource => ?_, fun hsource => ?_⟩
  · have hfresh : c.reader.Fresh
        ⟨(contentOf s.world).withProperty c.id (.single (storageName
          (c.known s) key) .binary (.binary copy)), c.known s⟩
        { t with cache := .empty } :=
      ⟨ht, hcontent.withProperty c.id hp hm fun _ => ⟨_, rfl⟩, rfl⟩
    have hstored : ((((contentOf s.world).withProperty c.id (.single
        (storageName (c.known s) key) .binary (.binary copy))).nodes
          c.id).property? (storageName (c.known s) key)) =
        some (.single (storageName (c.known s) key) .binary
          (.binary copy)) := by
      rw [Repository.withProperty, Repository.nodes_modifyNode]
      exact NodeState.property?_withProperty_self _ hp hm
    exact getAs?_text_fresh hfresh hne hpath hprimary hresource hcopy hsize
      hstored
  · have hopen : b.openReader t.world.streams =
        (.ok ⟨content, false⟩, t.world.streams) :=
      Binary.delivers_iff.2 (.inl hsource) _
    rw [getAs?_of_fullyRead hread hne hpath hslot (by decide),
      MapM.run_ofConversion,
      Entry.run_convert_text_of_open rfl rfl hb hsize hopen]
  · have hopen : b.openReader t.world.streams =
        (.error .alreadyConsumed, t.world.streams) := by
      simp [Binary.openReader, hsource, hused hsource]
    rw [getAs?_of_fullyRead hread hne hpath hslot (by decide),
      MapM.run_ofConversion, Entry.run_convert_text_of_closed rfl rfl hopen]

/-- The stream of two letters, put where there was no value. -/
theorem text_of_put_stream :
    ∃ t, Site.sample.map.put "b" (.binary ⟨0, .oneShot [0x68, 0x69]⟩)
        Site.sampleState = (.ok none, t) ∧
      (Site.sample.reader.map.getAs? "b" .string
        { t with cache := .empty }).1 =
          .ok (some (.value (.string
            (Text.utf8Lossy [0x68, 0x69])))) ∧
      (Site.sample.map.getAs? "b" .string t).1 = .ok none := by
  have hput : putsNew (Site.sample.map.put "b"
      (.binary ⟨0, .oneShot [0x68, 0x69]⟩) Site.sampleState) = true := by
    decide +kernel
  have hrun := eq_of_putsNew hput
  obtain ⟨hfresh, -, hwriter⟩ := text_of_put_binary Site.sample rfl
    Site.sampleState _ Repository.wellFormed_sample (by decide) "b"
    (by decide) (by decide) (by decide) (by decide) (by decide)
    ⟨0, .oneShot [0x68, 0x69]⟩ [0x68, 0x69] (.inr rfl) none hrun
  exact ⟨_, hrun, hfresh, hwriter rfl⟩

/-- A put of a stream leaves the map that has written with the stream,
which the node has used up, while a fresh map reads its text. -/
theorem put_uses_up_stream :
    ∃ t, Site.sample.map.put "a" (.binary ⟨0, .oneShot [0x68, 0x69]⟩)
        Site.sampleState = (.ok (some (.long 7)), t) ∧
      (Site.sample.map.getAs? "a" .string t).1 = .ok none ∧
      (Site.sample.reader.map.getAs? "a" .string
        { t with cache := .empty }).1 =
          .ok (some (.value (.string "hi"))) := by
  have htext : Text.utf8Lossy [0x68, 0x69] = "hi" := by decide +kernel
  rw [← htext]
  exact ⟨_, rfl, rfl, rfl⟩

end Memory

end ContentProperties
