/-
Reading on a node with a log. A map over a node with a log reads what a
map over the node reads, failures included, and leaves the same cache.
The log tells what it asked for. Looking a key up never enumerates. A
full read enumerates once, before anything else that is noted, unless it
has been done already, and then nothing is asked for.
-/
import ContentProperties.Proofs.Conversion.Quiet
import ContentProperties.Proofs.Dict
import ContentProperties.Proofs.Map.Steps

namespace ContentProperties

variable {σ α β : Type}

-- ============================================== states of a logged map

/-- A cached slot of a map over the node with a log: the same value, by an
entry that knows of the log. -/
def Slot.logged (slot : Slot σ) : Slot (Logged σ) :=
  ⟨slot.entry.logged, slot.value⟩

def Cache.logged (c : Cache σ) : Cache (Logged σ) :=
  ⟨c.slots.map Slot.logged, c.fullyRead⟩

/-- The state with a log. -/
def MapState.logged (s : MapState σ) (log : List NodeCall) :
    MapState (Logged σ) :=
  ⟨s.cache.logged, s.prefixes, s.world.logged log⟩

/-- The map over the node with a log. -/
def PropertyMap.logged (m : PropertyMap σ) : PropertyMap (Logged σ) :=
  ⟨m.node.logged, m.provider, m.writable⟩

@[simp] theorem PropertyMap.provider_logged (m : PropertyMap σ) :
    m.logged.provider = m.provider := rfl

/-- Anything may be asked for but an enumeration. -/
def NoEnumeration : NodeCall → Prop := (· ≠ .enumeration)

namespace MapM

variable {first : List NodeCall} {may : NodeCall → Prop} {f : α → β}

/-- A call whose failure is taken as a value. -/
theorem follows_attempt {x : Act σ α} {y : Act (Logged σ) β}
    (h : Opens World.logged first may f x y) :
    Opens MapState.logged first may (Except.map f) (attempt x)
      (attempt y) := by
  intro s log
  obtain ⟨asked, hrun, hasked⟩ := h s.world log
  refine ⟨asked, ?_, hasked⟩
  rw [run_attempt, run_attempt,
    show (s.logged log).world = s.world.logged log from rfl, hrun]
  rfl

/-- A call of the node opens with what it is noted for. -/
theorem follows_ofAct {x : Act σ α} {y : Act (Logged σ) β}
    (h : Opens World.logged first may f x y) :
    Opens MapState.logged first may f (ofAct x) (ofAct y) := by
  refine follows_bind (follows_attempt h) fun r => ?_
  cases r with
  | error e => exact follows_throw _
  | ok a => exact follows_pure a

/-- Making an entry changes the world alone, so the log of a map is that of
the world. -/
theorem follows_ofEntry {x : ExceptT MapError (StateM (World σ)) α}
    {y : ExceptT MapError (StateM (World (Logged σ))) β}
    (h : Follows World.logged may f x y) :
    Follows MapState.logged may f (ofEntry x) (ofEntry y) := by
  intro s log
  obtain ⟨asked, hrun, hasked⟩ := h s.world log
  refine ⟨asked, ?_, hasked⟩
  rw [run_ofEntry, run_ofEntry,
    show (s.logged log).world = s.world.logged log from rfl, hrun]
  rfl

/-- A conversion may be broken off, and then is on both sides, for one
cause. -/
theorem follows_ofConversion {x : ExceptT Abort (StateM (World σ)) α}
    {y : ExceptT Abort (StateM (World (Logged σ))) β}
    (h : Follows World.logged may f x y) :
    Follows MapState.logged may f (ofConversion x) (ofConversion y) := by
  intro s log
  obtain ⟨asked, hrun, hasked⟩ := h s.world log
  refine ⟨asked, ?_, hasked⟩
  rw [run_ofConversion, run_ofConversion,
    show (s.logged log).world = s.world.logged log from rfl, hrun]
  rcases x s.world with ⟨_ | _, w⟩ <;> rfl

theorem follows_slots : Follows MapState.logged may (Dict.map Slot.logged)
    (slots : MapM σ _) (slots : MapM (Logged σ) _) :=
  follows_of_run fun _ _ => rfl

/-- What is read off the slots is the same if it does not depend on what
entries are made of. -/
theorem follows_ofSlots {view : Dict (Slot σ) → α}
    {view' : Dict (Slot (Logged σ)) → β}
    (h : ∀ d, view' (d.map Slot.logged) = f (view d)) :
    Follows MapState.logged may f
      (do let d ← slots; pure (view d) : MapM σ α)
      (do let d ← slots; pure (view' d) : MapM (Logged σ) β) := by
  refine follows_bind follows_slots fun d => ?_
  rw [h]
  exact follows_pure _

theorem follows_isFullyRead : Follows MapState.logged may id
    (isFullyRead : MapM σ Bool) (isFullyRead : MapM (Logged σ) Bool) :=
  follows_of_run fun _ _ => rfl

/-- To set a slot is no question, and sets the corresponding slot. -/
theorem follows_setSlot (key : String) (slot : Slot σ) :
    Follows MapState.logged may id
      (modifySlots (·.set key slot) : MapM σ Unit)
      (modifySlots (·.set key slot.logged) : MapM (Logged σ) Unit) := by
  refine follows_of_run fun s log => ?_
  rw [run_modifySlots, run_modifySlots]
  dsimp only [MapState.logged, Cache.logged]
  rw [Dict.map_set]
  rfl

/-- What a failure is turned into makes no difference to what is asked. -/
theorem follows_mapError {x : MapM σ α} {y : MapM (Logged σ) β}
    (h : Opens MapState.logged first may f x y) (g : MapError → MapError) :
    Opens MapState.logged first may f (mapError g x) (mapError g y) := by
  intro s log
  obtain ⟨asked, hrun, hasked⟩ := h s log
  refine ⟨asked, ?_, hasked⟩
  unfold mapError
  rw [hrun]
  rcases x s with ⟨_ | _, t⟩ <;> rfl

end MapM

namespace PropertyMap

variable (m : PropertyMap σ)

-- ============================================================= names

/-- The prefixes are asked of the session, which is noted, unless they are
kept from before. -/
theorem follows_namespacePrefixes :
    Follows MapState.logged NoEnumeration id
      (m.provider.namespacePrefixes m.node.session)
      (m.provider.namespacePrefixes m.logged.node.session) := by
  have hask : Follows MapState.logged NoEnumeration id
      (MapM.ofAct m.node.session.namespacePrefixes)
      (MapM.ofAct m.logged.node.session.namespacePrefixes) :=
    MapM.follows_ofAct (follows_logged (by simp [NoEnumeration]) _)
  unfold Provider.namespacePrefixes
  split
  · refine follows_bind (f := id) (follows_of_run fun _ _ => rfl)
      fun known => ?_
    cases known with
    | some known => exact follows_pure known
    | none =>
      refine follows_bind hask fun known => ?_
      exact follows_bind (f := id) (follows_of_run fun _ _ => rfl) fun _ =>
        follows_pure known
  · exact hask

/-- Only a key with a prefix asks for the registered ones. -/
theorem follows_escapeKey (key : String) :
    Follows MapState.logged NoEnumeration id (m.escapeKey key)
      (m.logged.escapeKey key) := by
  unfold escapeKey
  split
  · exact follows_pure _
  · refine follows_bind (f := id) (follows_bind
      (follows_namespacePrefixes m) fun _ => follows_pure _) fun b => ?_
    cases b <;> exact follows_pure _

-- ============================================================ caching

/-- A property that was found is asked for its value without a note. -/
theorem follows_readSlot (p : Property σ) :
    Follows World.logged Quiet Slot.logged (readSlot p)
      (readSlot p.logged) :=
  follows_bind (follows_ofProperty p) fun e =>
    follows_bind (follows_entry_value e) fun _ => follows_pure _

/-- A property that is cached already is not asked again, and else is asked
without a note. -/
theorem follows_cacheProperty (p : Property σ) :
    Follows MapState.logged Quiet Slot.logged (m.cacheProperty p)
      (m.logged.cacheProperty p.logged) := by
  refine follows_bind MapM.follows_slots fun slots => ?_
  rw [Dict.get?_map, show p.logged.name = p.name from rfl,
    m.provider_logged]
  cases slots.get? (decodeName m.provider.options.legacyPathEncoding
    p.name) with
  | some slot => exact follows_pure slot
  | none =>
    exact follows_bind (MapM.follows_ofAct (follows_readSlot p)) fun slot =>
      follows_bind (MapM.follows_setSlot _ slot) fun _ => follows_pure slot

/-- A type that stands in is cached unless its key is taken. -/
theorem follows_cacheValue (key : String) (v : Value) :
    Follows MapState.logged Quiet Slot.logged (m.cacheValue key v)
      (m.logged.cacheValue key v) := by
  refine follows_bind MapM.follows_slots fun slots => ?_
  rw [Dict.get?_map]
  cases slots.get? key with
  | some slot => exact follows_pure slot
  | none =>
    exact follows_bind
      (MapM.follows_ofEntry (follows_ofValue m.node.session v)) fun entry =>
        follows_bind (MapM.follows_setSlot key ⟨entry, v⟩) fun _ =>
          follows_pure _

/-- The primary type is asked of the node, which is noted. -/
theorem follows_cachePrimaryType :
    Follows MapState.logged NoEnumeration Slot.logged m.cachePrimaryType
      m.logged.cachePrimaryType :=
  follows_bind
    (MapM.follows_ofAct (follows_logged (by simp [NoEnumeration]) _))
    fun _ => (follows_cacheValue m _ _).of_quiet

-- ==================================================== reading one key

/-- A property is asked for by name, which is noted and no enumeration. -/
theorem follows_lookup (name : String) :
    Follows MapState.logged NoEnumeration (Option.map Property.logged)
      (MapM.ofAct (m.node.property? name))
      (MapM.ofAct (m.logged.node.property? name)) :=
  MapM.follows_ofAct (follows_property? m.node name (by simp [NoEnumeration]))

theorem follows_readAt (name : String) {otherwise : MapM σ (Option (Slot σ))}
    {otherwise' : MapM (Logged σ) (Option (Slot (Logged σ)))}
    (h : Follows MapState.logged NoEnumeration (Option.map Slot.logged)
      otherwise otherwise') :
    Follows MapState.logged NoEnumeration (Option.map Slot.logged)
      (m.readAt name otherwise) (m.logged.readAt name otherwise') := by
  refine follows_bind (follows_lookup m name) fun p? => ?_
  cases p? with
  | none => exact h
  | some p =>
    exact follows_map (MapM.follows_ofAct (follows_readSlot p).of_quiet)
      fun _ => rfl

/-- A path is looked up under its encoded name, its escaped one, or first
the one and then the other; no cache is asked. -/
theorem follows_readPath (path : String) :
    Follows MapState.logged NoEnumeration (Option.map Slot.logged)
      (m.readPath path) (m.logged.readPath path) := by
  have hlast : ∀ name, Follows MapState.logged NoEnumeration
      (Option.map Slot.logged) (m.readAt name (pure none))
      (m.logged.readAt name (pure none)) := fun name =>
    follows_readAt m name (follows_pure none)
  unfold readPath
  rw [m.provider_logged]
  dsimp only
  split
  · refine follows_readAt m _ ?_
    split
    · exact follows_pure none
    · exact hlast _
  · exact hlast _

/-- A key is looked for in the cache and then, unless everything was read,
at the node. -/
theorem follows_readOr (key : String) {otherwise : MapM σ (Option (Slot σ))}
    {otherwise' : MapM (Logged σ) (Option (Slot (Logged σ)))}
    (h : Follows MapState.logged NoEnumeration (Option.map Slot.logged)
      otherwise otherwise') :
    Follows MapState.logged NoEnumeration (Option.map Slot.logged)
      (m.readOr key otherwise) (m.logged.readOr key otherwise') := by
  refine follows_bind MapM.follows_slots fun slots => ?_
  rw [Dict.get?_map]
  cases slots.get? key with
  | some slot => exact follows_pure (some slot)
  | none =>
    refine follows_bind MapM.follows_isFullyRead fun fullyRead => ?_
    cases fullyRead with
    | true => exact follows_pure none
    | false =>
      refine follows_bind (follows_escapeKey m key) fun name =>
        follows_bind (follows_lookup m name) fun p? => ?_
      cases p? with
      | none => exact h
      | some p =>
        exact follows_map (follows_cacheProperty m p).of_quiet fun _ => rfl

/-- Without a property of its name the primary type is that of the node. -/
theorem follows_readPrimaryType :
    Follows MapState.logged NoEnumeration (Option.map Slot.logged)
      m.readPrimaryType m.logged.readPrimaryType :=
  follows_readOr m _ (follows_map (follows_cachePrimaryType m) fun _ => rfl)

/-- Without a property of its name the resource type is the primary one,
read as a key is. -/
theorem follows_readResourceType :
    Follows MapState.logged NoEnumeration (Option.map Slot.logged)
      m.readResourceType m.logged.readResourceType := by
  refine follows_readOr m _
    (follows_bind (follows_readPrimaryType m) fun primary? => ?_)
  cases primary? with
  | none => exact follows_pure none
  | some primary =>
    exact follows_map (follows_cacheValue m _ _).of_quiet fun _ => rfl

/-- Looking a key up never enumerates. -/
theorem follows_read (key : String) :
    Follows MapState.logged NoEnumeration (Option.map Slot.logged)
      (m.read key) (m.logged.read key) := by
  unfold read
  rw [m.provider_logged]
  split
  · exact follows_pure none
  split
  · exact follows_readPath m key
  split
  · exact follows_readPrimaryType m
  split
  · exact follows_readResourceType m
  · exact follows_readOr m key (follows_pure none)

-- ======================================================== reading all

/-- The properties that an enumeration found are cached without a further
note. -/
theorem follows_cacheAll (ps : List (Property σ)) :
    Follows MapState.logged Quiet id (m.cacheAll ps)
      (m.logged.cacheAll (ps.map Property.logged)) := by
  induction ps with
  | nil => exact follows_pure ()
  | cons p rest ih =>
    exact follows_bind (follows_discard (follows_cacheProperty m p))
      fun _ => ih

/-- The types that stand in are asked of the node, at most. -/
theorem follows_synthesizeTypes :
    Follows MapState.logged NoEnumeration id m.synthesizeTypes
      m.logged.synthesizeTypes := by
  have hprimary : Follows MapState.logged NoEnumeration id
      m.synthesizePrimaryType m.logged.synthesizePrimaryType := by
    refine follows_bind MapM.follows_slots fun slots => ?_
    rw [Dict.contains, Dict.contains, Dict.get?_map, Option.isSome_map]
    split
    · exact follows_pure ()
    · exact follows_discard (follows_cachePrimaryType m)
  have hresource : Follows MapState.logged NoEnumeration id
      m.synthesizeResourceType m.logged.synthesizeResourceType := by
    refine follows_bind MapM.follows_slots fun slots => ?_
    rw [Dict.contains, Dict.contains, Dict.get?_map, Dict.get?_map,
      Option.isSome_map]
    split
    · exact follows_pure ()
    · cases slots.get? primaryTypeName with
      | none => exact follows_pure ()
      | some primary =>
        exact follows_discard (follows_cacheValue m _ _).of_quiet
  refine follows_bind hprimary fun _ => ?_
  rw [m.provider_logged]
  split
  · exact hresource
  · exact follows_pure ()

/-- Caching all properties enumerates them before anything else. -/
theorem opens_cacheNode :
    Opens MapState.logged [.enumeration] NoEnumeration id m.cacheNode
      m.logged.cacheNode :=
  follows_bind (MapM.follows_ofAct (opens_properties m.node)) fun ps =>
    follows_bind (follows_cacheAll m ps).of_quiet fun _ =>
      follows_synthesizeTypes m

/-- A full read asks for nothing if it has been done. Else it enumerates
once, whether or not it then succeeds. -/
theorem run_readFully_logged (s : MapState σ) (log : List NodeCall) :
    ∃ asked, m.logged.readFully (s.logged log) =
        ((m.readFully s).1.map id,
          (m.readFully s).2.logged (log ++ asked)) ∧
      asked.count .enumeration = (if s.cache.fullyRead then 0 else 1) ∧
      (s.cache.fullyRead = true → asked = []) := by
  cases hs : s.cache.fullyRead with
  | true =>
    refine ⟨[], ?_, rfl, fun _ => rfl⟩
    have hs' : (s.logged log).cache.fullyRead = true := hs
    rw [readFully_of_fullyRead hs, readFully_of_fullyRead hs',
      List.append_nil]
    rfl
  | false =>
    -- Asking for the path cannot fail here, so the enumeration is noted
    -- whatever happens.
    have hopens : Opens MapState.logged [.enumeration] NoEnumeration id
        (do
          let path ← MapM.attempt m.node.path
          MapM.mapError (whileReading (path.toOption.getD "")) m.cacheNode
          MapM.setFullyRead)
        (do
          let path ← MapM.attempt m.logged.node.path
          MapM.mapError (whileReading (path.toOption.getD ""))
            m.logged.cacheNode
          MapM.setFullyRead) := by
      refine opens_after (MapM.follows_attempt (follows_unnoted m.node.path))
        (fun s => ⟨_, _, MapM.run_attempt _ s⟩) fun path => ?_
      rw [show (Except.map id path).toOption = path.toOption by
        cases path <;> rfl]
      exact follows_bind (MapM.follows_mapError (opens_cacheNode m) _) fun _ =>
        follows_of_run fun _ _ => rfl
    obtain ⟨asked, hrun, hasked⟩ := hopens s log
    have hs' : (s.logged log).cache.fullyRead = false := hs
    refine ⟨.enumeration :: asked, ?_, ?_, fun h => nomatch h⟩
    · rw [readFully_of_unread hs, readFully_of_unread hs']
      exact hrun
    · have hnone : asked.count .enumeration = 0 :=
        List.count_eq_zero.2 fun h => hasked _ h rfl
      rw [List.count_cons_self, hnone]
      rfl

end PropertyMap

end ContentProperties
