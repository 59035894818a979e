/-
What was put is read back as it was. A repository keeps fewer kinds of
values than there are: integers become longs, both kinds of fractions
doubles, characters strings, every timestamp one with an offset, and an
object the binary of its stream. The stored form of a value converts
back to the value when its own type is asked for (`run_convertScalar_back`),
each kind on a way of its own, and the items of an array do one by one.

Not every value comes back. A stream that can be opened once only is
stored as a copy, and an object whose type the loader does not know is
not read; `Value.Returns` leaves them out, in arrays as well.
-/
import ContentProperties.Proofs.Conversion.Calm
import ContentProperties.Proofs.Conversion.StoredObjects
import ContentProperties.Proofs.Map.Answers
import ContentProperties.Proofs.Map.NodeWrites

namespace ContentProperties

-- ================================================ values that come back

/-- A value that is no array and comes back: a binary has a known length,
an object is printed and read by the loader, and a number of single
precision is the same as a double. -/
def Value.ReturnsAlone (loader : Option TypeLoader) : Value → Prop
  | .float x => x.toFloat.toFloat32 = x
  | .binary b => b.length?.isSome
  | .object o => o.ReadsBack ∧ ObjectStream.resolves loader o.typeName
  | .array _ => False
  | _ => True

/-- A value that comes back: an array does if its items do and are all of
one type. -/
def Value.Returns (loader : Option TypeLoader) : Value → Prop
  | .array items => (∀ x ∈ items, x.ReturnsAlone loader) ∧
      ∀ x ∈ items, ∀ y ∈ items, ValueType.of x = ValueType.of y
  | x => x.ReturnsAlone loader

namespace Memory

open PropertyMap

section Entries

variable (session : Session Repository) (e : Entry Repository)
variable {provider : Provider}

-- ============================================================== one value

/-- An instant is found again in its timestamp. -/
theorem toDate_toTimestamp (i : Time.Instant) :
    (Converter.calendar i.toTimestamp).toDate = .ok (.ok i) := by
  have hback : i.toTimestamp.toInstant? = some i := dif_pos i.inCalendar
  unfold Converter.toDate Converter.toCalendar
  dsimp only
  rw [hback]

/-- What is kept for a value converts back to the value. -/
theorem run_convertScalar_back {x : Value} {s : StoredValue}
    (h : HeldAs x s) (hx : x.ReturnsAlone provider.loader)
    (place : Option Nat) (w : World Repository) :
    (Entry.convertScalar session provider e place s.toValue
      (ValueType.of x)).run w = (.ok (some (.value x)), w) := by
  obtain ⟨s₀, hs₀, hbuf⟩ := h
  cases x with
  | array items => cases hx
  | binary b =>
      cases hs₀
      obtain ⟨n, hn⟩ := Option.isSome_iff_exists.1 hx
      simp only [Buffers, hn] at hbuf
      cases hbuf
      rfl
  | object o =>
      obtain ⟨bytes, b, hbytes, hb, rfl⟩ := hs₀
      have hlength : b.length? = some bytes.length := by
        rw [Binary.length?, hb]
        rfl
      simp only [Buffers, hlength] at hbuf
      cases hbuf
      have hfound : (Entry.objectIn provider b).run w =
          (.ok (some (some o)), w) := by
        rw [Entry.run_objectIn hbytes hx.1 (Binary.delivers_iff.2 (.inl hb)),
          if_pos hx.2]
      show (Entry.convertScalar session provider e place (.binary b)
        (.object o.typeName)).run w = _
      rw [Entry.run_convertScalar_of_objectIn hfound (.inr ⟨_, rfl⟩) place]
      simp [ValueType.isInstance]
  | byte n =>
      cases hs₀
      cases hbuf
      have hback : n.toInt64.toInt32.toInt8 = n := by simp
      show (Except.ok (some (Converted.value
        (.byte n.toInt64.toInt32.toInt8))), w) = _
      rw [hback]
  | short n =>
      cases hs₀
      cases hbuf
      have hback : n.toInt64.toInt32.toInt16 = n := by simp
      show (Except.ok (some (Converted.value
        (.short n.toInt64.toInt32.toInt16))), w) = _
      rw [hback]
  | int n =>
      cases hs₀
      cases hbuf
      have hback : n.toInt64.toInt32 = n := by simp
      show (Except.ok (some (Converted.value (.int n.toInt64.toInt32))), w) = _
      rw [hback]
  | float n =>
      cases hs₀
      cases hbuf
      show (Except.ok (some (Converted.value
        (.float n.toFloat.toFloat32))), w) = _
      rw [hx]
  | char ch =>
      cases hs₀
      cases hbuf
      have hone : (String.singleton ch).toList = [ch] := by simp
      have hback : (Converter.text (String.singleton ch)).toChar = .ok ch := by
        unfold Converter.toChar Converter.toText
        rw [hone]
        rfl
      show (Converted.value <$> Attempt.ofConversion
        (Value.char <$> (Converter.text (String.singleton ch)).toChar)).run
          w = _
      rw [hback]
      rfl
  | date i =>
      cases hs₀
      cases hbuf
      show ((fun i => Converted.value (.date i)) <$> Attempt.ofDate
        (Converter.calendar i.toTimestamp).toDate).run w = _
      rw [toDate_toTimestamp]
      rfl
  | _ =>
      cases hs₀
      cases hbuf
      rfl

-- ========================================================== whole values

/-- The items of an array convert back one by one. -/
theorem run_convertItems_back {target : ValueType} {xs : List Value}
    {ss : List StoredValue} (h : List.Forall₂ HeldAs xs ss)
    (hxs : ∀ x ∈ xs, x.ReturnsAlone provider.loader ∧
      ValueType.of x = target) (place : Nat) (w : World Repository) :
    (Entry.convertItems session provider e target place
      (ss.map StoredValue.toValue)).run w =
        (.ok (some (xs.map Converted.value)), w) := by
  induction h generalizing place with
  | nil => rfl
  | @cons x s xs ss hs _ ih =>
    obtain ⟨hx, rfl⟩ := hxs x (List.mem_cons_self ..)
    exact Entry.run_convertItems_cons
      (run_convertScalar_back session e hs hx (some place) w)
      (ih (fun y hy => hxs y (List.mem_cons_of_mem _ hy)) (place + 1))

/-- The entry of a property that keeps a value converts back to it. -/
theorem run_convert_back {p : StoredProperty} {x : Value}
    (h : Holds p x) (hx : x.Returns provider.loader)
    (w : World Repository) :
    ∃ found, p.slot.entry.convert session provider (ValueType.of x) w =
        (.ok (some found), w) ∧
      ∀ u, found.toValue? u = (some x, u) := by
  have hvalue := run_slot_value h.wellFormed w
  cases h with
  | @one name type x s hsingle hs =>
      have halone : x.ReturnsAlone provider.loader := by
        cases x with
        | array items => cases hsingle
        | _ => exact hx
      refine ⟨.value x, ?_, fun u => rfl⟩
      rw [Entry.run_convert_single rfl hvalue
        (ValueType.isArray_of_eq_false hsingle)]
      exact run_convertScalar_back session _ hs halone none w
  | @many name type items ss hss =>
      have hitems : ∃ target, ValueType.of (.array items) = .array target ∧
          ∀ x ∈ items, x.ReturnsAlone provider.loader ∧
            ValueType.of x = target := by
        cases items with
        | nil => exact ⟨.unknown, rfl, fun x hmem => nomatch hmem⟩
        | cons first rest =>
            refine ⟨ValueType.of first, rfl, fun x hmem => ⟨hx.1 x hmem, ?_⟩⟩
            exact hx.2 x hmem first (List.mem_cons_self ..)
      obtain ⟨target, htarget, hall⟩ := hitems
      refine ⟨.array (items.map .value), ?_,
        Converted.run_toValue?_array items⟩
      rw [htarget]
      exact Entry.run_convert_items rfl hvalue
        (run_convertItems_back session _ hss hall 0 w)

end Entries

-- ========================================================= the full read

variable {c : Site} {v : Surroundings} {s t : MapState Repository}

/-- What a map shares with others: the content of the repository, and the
prefixes of the provider. -/
def shared (s : MapState Repository) : Repository × PrefixCache :=
  (contentOf s.world, s.prefixes)

theorem surroundings_of_shared (h : shared t = shared s) :
    c.surroundings t = c.surroundings s := by
  have hworld : contentOf t.world = contentOf s.world := congrArg Prod.fst h
  have hprefixes : t.prefixes = s.prefixes := congrArg Prod.snd h
  have hsession : (t.world.repo.sessions c.sid).prefixes =
      (s.world.repo.sessions c.sid).prefixes :=
    (congrArg (fun r => (r.sessions c.sid).prefixes) hworld :)
  simp only [Site.surroundings, Site.known, hworld, hprefixes, hsession]

theorem keeps_cacheValue (key : String) (x : Value) :
    Keeps shared (c.map.cacheValue key x) := by
  have hmade : Keeps shared
      (MapM.ofEntry (Entry.ofValue c.map.node.session x)) := by
    refine MapM.keeps_ofEntry fun s => ?_
    have hrepo : (Entry.ofValue (Memory.session c.sid) x s.world).2.repo =
        s.world.repo := by
      rcases ofValue_cases c.sid x s.world with
        ⟨w, hrun, -, hw⟩ | ⟨e, w, hrun, hw⟩ <;> rw [hrun] <;> exact hw
    exact Prod.ext (congrArg Repository.content hrepo) rfl
  unfold cacheValue
  refine keeps_bind (fun _ => rfl) fun slots => ?_
  split
  · exact keeps_pure _
  · exact keeps_bind hmade fun entry =>
      keeps_bind (fun _ => rfl) fun _ => keeps_pure _

theorem keeps_synthesizeTypes : Keeps shared c.map.synthesizeTypes := by
  have hask : Keeps shared (MapM.ofAct c.map.node.primaryType) :=
    MapM.keeps_ofAct fun s =>
      Prod.ext (keeps_primaryType c.id c.sid s.world) rfl
  unfold synthesizeTypes synthesizePrimaryType synthesizeResourceType
    cachePrimaryType
  refine keeps_bind (keeps_bind (fun _ => rfl) fun slots => ?_) fun _ => ?_
  · split
    · exact keeps_pure _
    · exact keeps_discard (keeps_bind hask fun _ => keeps_cacheValue _ _)
  · split
    · refine keeps_bind (fun _ => rfl) fun slots => ?_
      split
      · exact keeps_pure _
      · split
        · exact keeps_discard (keeps_cacheValue _ _)
        · exact keeps_pure _
    · exact keeps_pure _

/-- A full read touches nothing but the cache, whatever the cache held
before. -/
theorem shared_readFully (hwf : (c.node s).WellFormed)
    (h : c.map.readFully s = (.ok (), t)) : shared t = shared s := by
  cases hread : s.cache.fullyRead with
  | true =>
      rw [readFully_of_fullyRead hread] at h
      cases h
      rfl
  | false =>
      cases hfails : (c.node s).failsEnumeration with
      | true =>
          obtain ⟨w, hrun, -⟩ := run_readFully_of_fails rfl hfails hread
          rw [hrun] at h
          cases h
      | false =>
          obtain ⟨w, hrun, hw⟩ := run_cacheNode_properties rfl hwf hfails
          have htypes := keeps_synthesizeTypes (c := c)
            ⟨⟨addAll c.options s.cache.slots (c.node s).allProperties,
              s.cache.fullyRead⟩, s.prefixes, w⟩
          rw [← hrun] at htypes
          rw [run_readFully_unread hread] at h
          rcases hcached : c.map.cacheNode s with ⟨e | _, u⟩
          · rw [hcached] at h
            cases h
          · rw [hcached] at h htypes
            cases h
            exact htypes.trans (Prod.ext hw rfl)

-- ============================================================== reading

/-- A map that has read nothing reads the property of a key. -/
theorem run_read_stored (hs : c.surroundings s = v)
    (hempty : s.cache = Cache.empty) {key : String}
    (hk : PropertyKey c.options.legacyPathEncoding v.known key)
    {p : StoredProperty} (hwf : p.WellFormed)
    (hp : (v.repo.nodes c.id).property? (storageName v.known key) = some p) :
    ∃ t, c.map.read key s = (.ok (some p.slot), t) := by
  have hknown := known_of_surroundings hs
  obtain ⟨t, hescaped, ht⟩ := run_escapeKey (c := c) key s
  rw [hknown] at hescaped
  have hcache : t.cache = Cache.empty := (congrArg Prod.fst ht).trans hempty
  have htnode := node_of_surroundings ((congrArg Prod.snd ht).trans hs)
  obtain ⟨w, hfound, -⟩ := run_ownProperty (c := c)
    (slash_not_mem_storageName v.known hk.noPath) t
  rw [htnode, hp] at hfound
  have hcached := run_cacheProperty (c := c) hwf { t with world := w }
  have hnone : t.cache.slots.get? (p.key c.options) = none := by
    rw [hcache]
    rfl
  rw [hnone] at hcached
  have hslots : s.cache.slots.get? key = none := by
    rw [hempty]
    rfl
  have hunread : s.cache.fullyRead = false := by rw [hempty]; rfl
  rw [read_eq_readOr hk.nonempty hk.noPath hk.notPrimary hk.notResource]
  unfold readOr
  rw [run_bind_of_ok (MapM.run_slots s), hslots]
  dsimp only
  rw [run_bind_of_ok (MapM.run_isFullyRead s), hunread]
  simp only [Bool.false_eq_true, if_false]
  rw [run_bind_of_ok hescaped,
    show c.map.node = Memory.node c.id c.sid from rfl, run_bind_of_ok hfound]
  dsimp only [Option.map_some]
  rw [run_map, hcached]
  exact ⟨_, rfl⟩

/-- A typed reading of a stored property converts its entry. -/
theorem run_getAs?_stored (hs : c.surroundings s = v)
    (hempty : s.cache = Cache.empty) {key : String}
    (hk : PropertyKey c.options.legacyPathEncoding v.known key)
    {p : StoredProperty} {x : Value} (hholds : Holds p x)
    (hx : x.Returns c.provider.loader)
    (hp : (v.repo.nodes c.id).property? (storageName v.known key) = some p) :
    ∃ found t, c.map.getAs? key (ValueType.of x) s = (.ok (some found), t) ∧
      ∀ u, found.toValue? u = (some x, u) := by
  obtain ⟨t, hread⟩ := run_read_stored hs hempty hk hholds.wellFormed hp
  obtain ⟨found, hconvert, hvalue⟩ :=
    run_convert_back (session c.sid) hholds hx t.world
  have htarget : ValueType.of x ≠ .unknown := by
    cases x with
    | array items => cases items <;> exact fun h => nomatch h
    | _ => exact fun h => nomatch h
  refine ⟨found, t, ?_, hvalue⟩
  unfold getAs?
  rw [if_neg htarget, plainKey_of_not_isPath hk.noPath, run_bind_of_ok hread]
  show MapM.ofConversion
    (p.slot.entry.convert (session c.sid) c.provider (ValueType.of x)) t = _
  rw [MapM.run_ofConversion, hconvert]

/-- Whatever a map over a node in memory has read before: a value that it
puts under a property key is read back as itself by a fresh map, if the
type of the value is asked for. -/
theorem put_then_getAs? (c : Site) (hw : c.writable = true)
    (s t : MapState Repository) (hwf : s.world.repo.WellFormed)
    (key : String)
    (hk : PropertyKey c.options.legacyPathEncoding (c.known s) key)
    (x : Value) (hx : x.Returns c.provider.loader) (old : Option Value)
    (hput : c.map.put key x s = (.ok old, t)) :
    ∃ found u, c.reader.map.getAs? key (ValueType.of x)
        { t with cache := .empty } = (.ok (some found), u) ∧
      (found.toValue? u.world).1 = some x := by
  obtain ⟨hp, hm⟩ := hk.storageName_ne
  have hkey := plainKey_of_not_isPath hk.noPath
  -- the put has read everything first
  have hstart := put_of_readFully (m := c.map) (s := s) hw hk.isPlain x
  rcases hfull : c.map.readFully s with ⟨e | _, r⟩
  · rw [hput, hfull] at hstart
    cases hstart
  have hshared := shared_readFully
    (NodeState.wellFormed_content.2 (hwf c.id)) hfull
  have hr : c.surroundings r = ⟨contentOf s.world, c.known s⟩ :=
    surroundings_of_shared hshared
  have houtcomes := put_outcomes hw hr (fullyRead_of_readFully hfull)
    hk.isPlain (by rwa [hkey]) (by rwa [hkey]) x
  rw [hkey] at houtcomes
  have hrun : c.map.put key x r = (.ok old, t) := by
    rw [hput, hfull] at hstart
    exact hstart.symm
  rcases houtcomes with ⟨e, u, hfailed, -⟩ | ⟨_, p, u, hdone, hname, hholds,
    -, hu⟩
  · rw [hrun] at hfailed
    cases hfailed
  rw [hrun] at hdone
  cases hdone
  have hstored : ((((contentOf s.world).withProperty c.id p).nodes
      c.id).property? (storageName (c.known s) key)) = some p := by
    rw [show ((contentOf s.world).withProperty c.id p).nodes c.id =
      ((contentOf s.world).nodes c.id).withProperty p from
        Repository.nodes_modifyNode _ _ _,
      NodeState.property?_of_ne hp hm, ← hname]
    exact Dict.get?_set_self _ _ _
  obtain ⟨found, u', hget, hvalue⟩ := run_getAs?_stored (c := c.reader)
    (s := { t with cache := .empty }) hu rfl hk hholds hx hstored
  exact ⟨found, u', hget, by rw [hvalue]⟩

/-! What a computation on fixed bytes came to, as a test that can be
evaluated. -/

/-- Whether a put was done on a key that had no value. -/
def putsNew : Except MapError (Option Value) × MapState Repository → Bool
  | (.ok none, _) => true
  | _ => false

theorem eq_of_putsNew
    {r : Except MapError (Option Value) × MapState Repository}
    (h : putsNew r = true) : r = (.ok none, r.2) := by
  rcases r with ⟨_ | _ | _, _⟩
  · cases h
  · rfl
  · cases h

/-- Whether a read came to an array of no items. -/
def findsNoItems :
    Except MapError (Option (Converted Repository)) × MapState Repository →
      Bool
  | (.ok (some (.array [])), _) => true
  | _ => false

theorem eq_of_findsNoItems
    {r : Except MapError (Option (Converted Repository)) ×
      MapState Repository}
    (h : findsNoItems r = true) : r = (.ok (some (.array [])), r.2) := by
  rcases r with ⟨_ | _ | found, _⟩
  · cases h
  · cases h
  · cases found with
    | array items =>
      cases items with
      | nil => rfl
      | cons => cases h
    | _ => cases h

/-- An object without any data, as the items of an array. -/
theorem put_then_getAs?_of_objects :
    (Value.array [.object ⟨"T", some .null⟩]).Returns none ∧
    ∃ t found u, Site.sample.map.put "b" (.array [.object ⟨"T", some .null⟩])
        Site.sampleState = (.ok none, t) ∧
      Site.sample.reader.map.getAs? "b" (.array (.object "T"))
        { t with cache := .empty } = (.ok (some found), u) ∧
      (found.toValue? u.world).1 =
        some (.array [.object ⟨"T", some .null⟩]) := by
  have hreturns : (Value.array [.object ⟨"T", some .null⟩]).Returns none := by
    constructor
    · intro x hx
      rw [List.mem_singleton.1 hx]
      exact ⟨ObjectValue.readsBack_null, rfl⟩
    · intro x hx y hy
      rw [List.mem_singleton.1 hx, List.mem_singleton.1 hy]
  have hput : putsNew (Site.sample.map.put "b"
      (.array [.object ⟨"T", some .null⟩]) Site.sampleState) = true := by
    decide +kernel
  have hkey := propertyKey_sample (show "b" ∈ ["a", "b", "c"] by decide)
  refine ⟨hreturns, ?_⟩
  have hrun := eq_of_putsNew hput
  obtain ⟨found, u, hget, hfound⟩ := put_then_getAs? Site.sample rfl
    Site.sampleState _ Repository.wellFormed_sample "b" hkey _ hreturns
    none hrun
  exact ⟨_, found, u, hrun, hget, hfound⟩

/-- A map whose loader knows no type. -/
def Site.refusing : Site := ⟨0, 0, ⟨.default, some fun _ => false⟩, true⟩

/-- Arrays of items that do not come back: a stream is stored as a copy,
and an object that the loader refuses is dropped. -/
theorem getAs?_of_other_items :
    (∃ t u, Site.sample.map.put "b" (.array [.binary ⟨0, .oneShot [7]⟩])
        Site.sampleState = (.ok none, t) ∧
      Site.sample.reader.map.getAs? "b" (.array .binary)
        { t with cache := .empty } =
          (.ok (some (.array [.value (.binary ⟨1, .buffered [7]⟩)])), u)) ∧
    ((Value.binary ⟨1, .buffered [7]⟩ == .binary ⟨0, .oneShot [7]⟩) =
      false) ∧
    ∃ t u, Site.refusing.map.put "b" (.array [.object ⟨"T", some .null⟩])
        Site.sampleState = (.ok none, t) ∧
      Site.refusing.reader.map.getAs? "b" (.array (.object "T"))
        { t with cache := .empty } = (.ok (some (.array [])), u) := by
  have hput : putsNew (Site.refusing.map.put "b"
      (.array [.object ⟨"T", some .null⟩]) Site.sampleState) = true := by
    decide +kernel
  have hget : findsNoItems (Site.refusing.reader.map.getAs? "b"
      (.array (.object "T")) { (Site.refusing.map.put "b"
        (.array [.object ⟨"T", some .null⟩]) Site.sampleState).2 with
        cache := .empty }) = true := by
    decide +kernel
  exact ⟨⟨_, _, rfl, rfl⟩, rfl, _, _, eq_of_putsNew hput,
    eq_of_findsNoItems hget⟩

end Memory

end ContentProperties
