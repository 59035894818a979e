/-
The reading calls of a map over a node in memory, as functions. Besides
its cache a map depends on its surroundings: the content of the
repository, and the prefixes that its provider knows. No reading call
changes them. So escaping a key, looking a property up, caching one
property, caching all of them and adding the types each have an equation
that says what they yield and which slots they leave, and `fill` puts
these together: it is what a full read makes of the slots it finds.
-/
import ContentProperties.Proofs.Conversion.Attempts
import ContentProperties.Proofs.Dict
import ContentProperties.Proofs.Map.Steps
import ContentProperties.Proofs.Name.StorageNames
import ContentProperties.Proofs.Repository.Upkeep

namespace ContentProperties

namespace Memory

open PropertyMap

-- ======================================================== surroundings

/-- What a map depends on besides its cache: what the repository holds,
and the prefixes that count as registered. -/
structure Surroundings where
  repo : Repository
  known : List String

/-- What a map over a node in memory is made from: the numbers of the
node and of its session, the provider, and whether it writes. -/
structure Site where
  id : Nat
  sid : Nat
  provider : Provider
  writable : Bool

namespace Site

/-- The options of the map. -/
def options (c : Site) : MapOptions := c.provider.options

/-- The map. -/
def map (c : Site) : PropertyMap Repository :=
  ⟨Memory.node c.id c.sid, c.provider, c.writable⟩

/-- The map over the same node that only reads. -/
def reader (c : Site) : Site := { c with writable := false }

/-- The prefixes that count as registered. -/
def known (c : Site) (s : MapState Repository) : List String :=
  let registered := (s.world.repo.sessions c.sid).prefixes
  if c.options.cacheNamespacePrefixes then s.prefixes.getD registered
  else registered

/-- The node of the map, without its counters. -/
def node (c : Site) (s : MapState Repository) : NodeState :=
  (contentOf s.world).nodes c.id

/-- The surroundings of the map. -/
def surroundings (c : Site) (s : MapState Repository) : Surroundings :=
  ⟨contentOf s.world, c.known s⟩

/-- The cache and the surroundings of the map. -/
def observed (c : Site) (s : MapState Repository) :
    Cache Repository × Surroundings :=
  (s.cache, c.surroundings s)

/-- A map over the node of the sample repository, with the options by
default. -/
def sample : Site := ⟨0, 0, ⟨.default, none⟩, true⟩

/-- The map has read nothing yet. -/
def sampleState : MapState Repository :=
  ⟨.empty, none, ⟨⟨1, []⟩, .sample⟩⟩

end Site

variable {c : Site} {s t : MapState Repository}

section InSurroundings

variable {v : Surroundings}

theorem content_of_surroundings (h : c.surroundings s = v) :
    contentOf s.world = v.repo :=
  congrArg Surroundings.repo h

theorem node_of_surroundings (h : c.surroundings s = v) :
    c.node s = v.repo.nodes c.id :=
  congrArg (fun v => v.repo.nodes c.id) h

theorem known_of_surroundings (h : c.surroundings s = v) :
    c.known s = v.known :=
  congrArg Surroundings.known h

end InSurroundings

/-- The sample can be read, and written under the keys `a`, `b` and
`c`. -/
theorem canonical_sample : ∀ p ∈
    (Site.sampleState.world.repo.nodes 0).allProperties,
    Canonical true (Site.sample.known Site.sampleState) p.name := by
  have h : ∀ p ∈ (Site.sampleState.world.repo.nodes 0).allProperties,
      storageName (Site.sample.known Site.sampleState)
        (decodeName true p.name) = p.name := by decide +kernel
  exact h

theorem propertyKey_sample {key : String} (hkey : key ∈ ["a", "b", "c"]) :
    PropertyKey true (Site.sample.known Site.sampleState) key := by
  have hback : ∀ key ∈ ["a", "b", "c"], decodeName true (storageName
      (Site.sample.known Site.sampleState) key) = key := by decide +kernel
  have hother : ∀ key ∈ ["a", "b", "c"], key ≠ "" ∧ isPath key = false ∧
      key ≠ primaryTypeName ∧ key ≠ mixinTypesName ∧
      key ≠ resourceTypeName := by decide
  obtain ⟨hne, hpath, hp, hm, hr⟩ := hother key hkey
  exact ⟨hne, hpath, hp, hm, hr, hback key hkey⟩

/-- A world of the same content leaves the surroundings as they were. -/
theorem observed_world {w : World Repository}
    (h : contentOf w = contentOf s.world) :
    c.observed { s with world := w } = c.observed s := by
  have hprefixes : (w.repo.sessions c.sid).prefixes =
      (s.world.repo.sessions c.sid).prefixes :=
    (congrArg (fun r => (r.sessions c.sid).prefixes) h :)
  simp only [Site.observed, Site.surroundings, Site.known, h, hprefixes]

/-- The map is in these surroundings, and the condition holds of its
cache. Nothing else of the state counts. -/
structure Site.Stands (c : Site) (v : Surroundings)
    (P : Cache Repository → Prop) (s : MapState Repository) : Prop where
  surroundings : c.surroundings s = v
  holds : P s.cache

namespace Site.Stands

variable {v : Surroundings} {P : Cache Repository → Prop}

theorem content (hs : c.Stands v P s) : contentOf s.world = v.repo :=
  content_of_surroundings hs.surroundings

theorem node (hs : c.Stands v P s) : c.node s = v.repo.nodes c.id :=
  node_of_surroundings hs.surroundings

theorem known (hs : c.Stands v P s) : c.known s = v.known :=
  known_of_surroundings hs.surroundings

/-- What is observed of a state tells how the map stands. -/
theorem congr (hs : c.Stands v P s) (h : c.observed t = c.observed s) :
    c.Stands v P t := by
  refine ⟨(congrArg Prod.snd h).trans hs.surroundings, ?_⟩
  rw [show t.cache = s.cache from congrArg Prod.fst h]
  exact hs.holds

/-- A world of the same content does not matter. -/
theorem world (hs : c.Stands v P s) {w : World Repository}
    (hw : contentOf w = contentOf s.world) :
    c.Stands v P { s with world := w } :=
  hs.congr (observed_world hw)

end Site.Stands

/-- A call that succeeds and keeps the content ends in a world of the same
content, and touches nothing else. -/
theorem ran_ofAct {α : Type} {act : Act Repository α} {a : α}
    (hk : Keeps contentOf act) (h : (act s.world).1 = .ok a) :
    ∃ w, MapM.ofAct act s = (.ok a, { s with world := w }) ∧
      contentOf w = contentOf s.world := by
  refine ⟨(act s.world).2, ?_, hk s.world⟩
  rw [MapM.run_ofAct, show act s.world = (.ok a, (act s.world).2) from
    Prod.ext h rfl]

-- ======================================================= storage names

/-- The prefixes that are asked for are those that count as registered,
and still do afterwards. -/
theorem run_known (s : MapState Repository) :
    ∃ t, c.provider.namespacePrefixes (session c.sid) s =
        (.ok (c.known s), t) ∧
      c.observed t = c.observed s := by
  obtain ⟨w, hask, hw⟩ := ran_ofAct (keeps_namespacePrefixes c.sid)
    (run_namespacePrefixes c.sid s.world)
  have hworld := observed_world (c := c) hw
  unfold Provider.namespacePrefixes Site.known Site.options
  cases hcaches : c.provider.options.cacheNamespacePrefixes with
  | false => exact ⟨_, hask, hworld⟩
  | true =>
      simp only [if_true]
      rw [run_bind]
      cases hknown : s.prefixes with
      | some known => exact ⟨s, by simp, rfl⟩
      | none =>
          simp only [Option.getD_none]
          rw [run_bind_of_ok hask]
          refine ⟨⟨s.cache, _, w⟩, rfl, ?_⟩
          rw [← hworld]
          have hprefixes : (w.repo.sessions c.sid).prefixes =
              (s.world.repo.sessions c.sid).prefixes :=
            (congrArg (fun r => (r.sessions c.sid).prefixes) hw :)
          simp [Site.observed, Site.surroundings, Site.known, Site.options,
            hcaches, hknown, hprefixes]

/-- The storage name of a key depends on the surroundings alone. -/
theorem run_escapeKey (key : String) (s : MapState Repository) :
    ∃ t, c.map.escapeKey key s =
        (.ok (storageName (c.known s) key), t) ∧
      c.observed t = c.observed s := by
  unfold escapeKey storageName
  cases hsplit : splitPrefix? key with
  | none => exact ⟨s, rfl, rfl⟩
  | some parts =>
      obtain ⟨front, rest⟩ := parts
      obtain ⟨t, hknown, ht⟩ := run_known (c := c) s
      have hregistered :
          c.provider.isRegistered (session c.sid) front s =
            (.ok ((c.known s).contains front), t) := by
        unfold Provider.isRegistered
        rw [run_bind_of_ok hknown]
        rfl
      refine ⟨t, ?_, ht⟩
      show (c.provider.isRegistered (session c.sid) front >>= _) s = _
      rw [run_bind_of_ok hregistered]
      simp only [List.contains_iff_mem]
      split <;> rfl

-- ============================================================== slots

/-- The slot of a property that was read. -/
def StoredProperty.slot (p : StoredProperty) : Slot Repository :=
  ⟨⟨.stored p.toProperty (if p.type = .binary then none else some p.natural),
    p.multiple⟩, p.natural⟩

/-- The slot of a value that was written. -/
def pendingSlot (v : Value) : Slot Repository := ⟨⟨.pending v, v.isArray⟩, v⟩

/-- The entry of a property has the value that is read. -/
theorem run_slot_value {p : StoredProperty} (hp : p.WellFormed)
    (w : World Repository) :
    p.slot.entry.value w = (.ok p.natural, w) := by
  unfold Entry.value StoredProperty.slot
  by_cases htype : p.type = .binary
  · simp only [htype, if_true]
    exact run_value hp w
  · simp [htype]

theorem run_readSlot {p : StoredProperty} (hp : p.WellFormed)
    (w : World Repository) : readSlot p.toProperty w = (.ok p.slot, w) := by
  have hentry : Entry.ofProperty p.toProperty w = (.ok p.slot.entry, w) :=
    Entry.run_ofProperty (run_value hp) w
  unfold readSlot
  rw [run_bind_of_ok hentry, run_bind_of_ok (run_slot_value hp w)]
  rfl

/-- A value as it is read can be written as it is. -/
theorem run_ofValue_natural (session : Session Repository)
    (p : StoredProperty) (w : World Repository) :
    Entry.ofValue session p.natural w =
      (.ok (pendingSlot p.natural).entry, w) := by
  have hone : ∀ v : StoredValue,
      Entry.checkStorable session v.toValue w = (.ok (), w) := by
    intro v
    cases v <;> rfl
  have hall : ∀ vs : List StoredValue,
      Entry.checkAllStorable session (vs.map StoredValue.toValue) w =
        (.ok (), w) := by
    intro vs
    induction vs with
    | nil => rfl
    | cons v rest ih =>
      simp only [List.map_cons, Entry.checkAllStorable]
      rw [run_bind_of_ok (hone v), ih]
  have hsingle : ∀ v : StoredValue,
      Entry.ofValue session v.toValue w =
        (.ok (pendingSlot v.toValue).entry, w) := by
    intro v
    cases v <;> rfl
  unfold StoredProperty.natural
  split
  · unfold Entry.ofValue
    dsimp only
    rw [run_bind_of_ok (hall p.values)]
    rfl
  · split
    · exact hsingle _
    · rfl

/-- The key under which a property is cached. -/
def StoredProperty.key (p : StoredProperty) (o : MapOptions) : String :=
  decodeName o.legacyPathEncoding p.name

/-- Caching a property yields what is cached under its key then. -/
theorem run_cacheProperty {p : StoredProperty} (hp : p.WellFormed)
    (s : MapState Repository) :
    c.map.cacheProperty p.toProperty s =
      (.ok ((s.cache.slots.get? (p.key c.options)).getD p.slot),
        { s with cache :=
          ⟨s.cache.slots.addNew (p.key c.options) p.slot,
            s.cache.fullyRead⟩ }) := by
  have hkey : decodeName
      c.map.provider.options.legacyPathEncoding
      (p.toProperty (σ := Repository)).name = p.key c.options := rfl
  unfold cacheProperty
  rw [run_bind_of_ok (MapM.run_slots s), hkey]
  cases hslot : s.cache.slots.get? (p.key c.options) with
  | some slot =>
      rw [Dict.addNew_of_some hslot]
      rfl
  | none =>
      have hread : MapM.ofAct (readSlot (p.toProperty (σ := Repository))) s =
          (.ok p.slot, s) := by
        rw [MapM.run_ofAct, run_readSlot hp]
      rw [Dict.addNew_of_none hslot]
      dsimp only
      rw [run_bind_of_ok hread]
      rfl

/-- Caching a value that was read yields what is cached under the key
then. -/
theorem run_cacheValue {m : PropertyMap Repository} (key : String)
    (p : StoredProperty) (s : MapState Repository) :
    m.cacheValue key p.natural s =
      (.ok ((s.cache.slots.get? key).getD (pendingSlot p.natural)),
        { s with cache := ⟨s.cache.slots.addNew key (pendingSlot p.natural),
            s.cache.fullyRead⟩ }) := by
  unfold cacheValue
  rw [run_bind_of_ok (MapM.run_slots s)]
  cases hslot : s.cache.slots.get? key with
  | some slot =>
      rw [Dict.addNew_of_some hslot]
      rfl
  | none =>
      have hmade : MapM.ofEntry (Entry.ofValue m.node.session p.natural) s =
          (.ok (pendingSlot p.natural).entry, s) := by
        rw [MapM.run_ofEntry, run_ofValue_natural]
      rw [Dict.addNew_of_none hslot]
      dsimp only
      rw [run_bind_of_ok hmade]
      rfl

/-- The primary type, as the property that would show it. -/
def NodeState.typeShown (n : NodeState) : StoredProperty :=
  .single primaryTypeName .name (.string n.primaryType)

/-- Caching the primary type asks the node for it. -/
theorem run_cachePrimaryType {n : NodeState}
    (hn : c.node s = n) :
    ∃ w, c.map.cachePrimaryType s =
        (.ok ((s.cache.slots.get? primaryTypeName).getD
            (pendingSlot n.typeShown.natural)),
          ⟨⟨s.cache.slots.addNew primaryTypeName
            (pendingSlot n.typeShown.natural), s.cache.fullyRead⟩,
            s.prefixes, w⟩) ∧
      contentOf w = contentOf s.world := by
  obtain ⟨w, hask, hw⟩ := ran_ofAct (keeps_primaryType c.id c.sid)
    (run_primaryType c.id c.sid s.world)
  rw [show (s.world.repo.nodes c.id).primaryType = n.primaryType from
    (congrArg NodeState.primaryType hn :)] at hask
  refine ⟨w, ?_, hw⟩
  unfold cachePrimaryType
  show (MapM.ofAct (node c.id c.sid).primaryType >>= _) s = _
  rw [run_bind_of_ok hask]
  exact run_cacheValue primaryTypeName n.typeShown { s with world := w }

-- ====================================================== single lookups

/-- A name that is no path is looked up among the node's own
properties. -/
theorem run_ownProperty {name : String} (h : '/' ∉ name.toList)
    (s : MapState Repository) :
    ∃ w, MapM.ofAct ((node c.id c.sid).property? name) s =
        (.ok (((c.node s).property? name).map StoredProperty.toProperty),
          { s with world := w }) ∧
      contentOf w = contentOf s.world := by
  refine ran_ofAct (keeps_property? c.id c.sid name) ?_
  rw [run_property?, Repository.resolve?_of_not_mem _ _ h]
  rfl

/-- A property that a path leads to is well-formed. -/
theorem Repository.WellFormed.of_resolve? {r : Repository}
    (hr : r.WellFormed) {id : Nat} {path : String} {p : StoredProperty}
    (h : r.resolve? id path = some p) : p.WellFormed := by
  unfold Repository.resolve? at h
  dsimp only at h
  split at h
  · next owner _ => exact ((hr owner).of_property?_eq_some h).2
  · cases h

/-- Reading at a path reads the property that is there, or goes on. -/
theorem run_readAt (hs : (contentOf s.world).WellFormed) (name : String)
    (otherwise : MapM Repository (Option (Slot Repository))) :
    ∃ w, contentOf w = contentOf s.world ∧
      c.map.readAt name otherwise s =
        match (contentOf s.world).resolve? c.id name with
        | some p => (.ok (some p.slot), { s with world := w })
        | none => otherwise { s with world := w } := by
  obtain ⟨w, hfound, hw⟩ := ran_ofAct (keeps_property? c.id c.sid name)
    (run_property? c.id c.sid name s.world)
  rw [← Repository.resolve?_content] at hfound
  refine ⟨w, hw, ?_⟩
  unfold readAt
  rw [show c.map.node = Memory.node c.id c.sid from rfl,
    run_bind_of_ok hfound]
  cases hp : (contentOf s.world).resolve? c.id name with
  | none => rfl
  | some p =>
      show (some <$> MapM.ofAct (readSlot p.toProperty) :
        MapM Repository (Option (Slot Repository))) _ = _
      rw [run_map, MapM.run_ofAct, run_readSlot (hs.of_resolve? hp)]

/-- The property that a path leads to, tried in both encodings if the
older one is wanted. -/
def Site.resolve? (c : Site) (r : Repository) (path : String) :
    Option StoredProperty :=
  let escaped := r.resolve? c.id (Name.escapePath path)
  if c.options.legacyPathEncoding then
    match r.resolve? c.id (Name.encodePath path) with
    | some p => some p
    | none =>
        if Name.encodePath path = Name.escapePath path then none else escaped
  else escaped

/-- Reading a path leaves the cache alone, and yields what is there. -/
theorem run_readPath (hs : (contentOf s.world).WellFormed)
    (path : String) :
    ∃ w, contentOf w = contentOf s.world ∧
      c.map.readPath path s =
        (.ok ((c.resolve? (contentOf s.world) path).map
          StoredProperty.slot), { s with world := w }) := by
  have hescaped : ∀ t : MapState Repository,
      contentOf t.world = contentOf s.world →
      ∃ w, contentOf w = contentOf t.world ∧
        c.map.readAt (Name.escapePath path) (pure none) t =
          (.ok (((contentOf s.world).resolve? c.id
            (Name.escapePath path)).map StoredProperty.slot),
            { t with world := w }) := by
    intro t ht
    obtain ⟨w, hw, hrun⟩ := run_readAt (c := c) (ht ▸ hs)
      (Name.escapePath path) (pure none)
    refine ⟨w, hw, ?_⟩
    rw [hrun, ht]
    cases (contentOf s.world).resolve? c.id (Name.escapePath path) <;> rfl
  unfold readPath Site.resolve?
  rw [show c.map.provider.options = c.options from rfl]
  dsimp only
  split
  · obtain ⟨w, hw, hrun⟩ := run_readAt (c := c) hs (Name.encodePath path)
      (if Name.encodePath path = Name.escapePath path then pure none
        else c.map.readAt (Name.escapePath path) (pure none))
    rw [hrun]
    cases (contentOf s.world).resolve? c.id (Name.encodePath path) with
    | some p => exact ⟨w, hw, rfl⟩
    | none =>
        dsimp only
        split
        · exact ⟨w, hw, rfl⟩
        · obtain ⟨u, hu, hrun'⟩ := hescaped { s with world := w } hw
          exact ⟨u, hu.trans hw, hrun'⟩
  · exact hescaped s rfl

/-- Reading one key that is not cached, before everything has been read:
the property of its storage name is cached and yields what is under its
own key then, and else `otherwise` has the word. -/
theorem run_readOr {n : NodeState} (hn : c.node s = n) (hwf : n.WellFormed)
    (hunread : s.cache.fullyRead = false) {key : String}
    (hnone : s.cache.slots.get? key = none) (hpath : isPath key = false)
    (otherwise : MapM Repository (Option (Slot Repository))) :
    ∃ t, c.observed t = c.observed s ∧ c.map.readOr key otherwise s =
      match n.property? (storageName (c.known s) key) with
      | some p =>
          (.ok (some ((s.cache.slots.get? (p.key c.options)).getD p.slot)),
            { t with cache :=
              ⟨s.cache.slots.addNew (p.key c.options) p.slot, false⟩ })
      | none => otherwise t := by
  obtain ⟨u, hname, hu⟩ := run_escapeKey (c := c) key s
  obtain ⟨w, hfound, hw⟩ := run_ownProperty (c := c)
    (slash_not_mem_storageName (c.known s) hpath) u
  have hnode : c.node u = n :=
    (node_of_surroundings (congrArg Prod.snd hu)).trans hn
  rw [hnode] at hfound
  have ht : c.observed { u with world := w } = c.observed s :=
    (observed_world hw).trans hu
  have hcache : u.cache = s.cache := congrArg Prod.fst hu
  refine ⟨{ u with world := w }, ht, ?_⟩
  -- Neither the cache nor the note of a full read settles the key.
  unfold readOr
  rw [run_bind_of_ok (MapM.run_slots s), hnone]
  dsimp only
  rw [run_bind_of_ok (MapM.run_isFullyRead s), hunread]
  simp only [Bool.false_eq_true, if_false]
  rw [run_bind_of_ok hname, show c.map.node = Memory.node c.id c.sid from rfl,
    run_bind_of_ok hfound]
  cases hp : n.property? (storageName (c.known s) key) with
  | none => rfl
  | some p =>
      show (some <$> c.map.cacheProperty p.toProperty :
        MapM Repository (Option (Slot Repository))) _ = _
      rw [run_map, run_cacheProperty (hwf.of_property?_eq_some hp).2]
      simp only [hcache, hunread]

-- ======================================================== reading all

/-- The slots with properties added, one after the other. -/
def addAll (o : MapOptions) (d : Dict (Slot Repository))
    (ps : List StoredProperty) : Dict (Slot Repository) :=
  ps.foldl (fun d p => d.addNew (p.key o) p.slot) d

/-- The slots with the types added that they lack. -/
def addTypes (o : MapOptions) (n : NodeState)
    (d : Dict (Slot Repository)) : Dict (Slot Repository) :=
  let d := d.addNew primaryTypeName (pendingSlot n.typeShown.natural)
  if o.synthesizeResourceType then
    match d.get? primaryTypeName with
    | some primary => d.addNew resourceTypeName (pendingSlot primary.value)
    | none => d
  else d

/-- What a full read makes of the slots it finds. -/
def fill (o : MapOptions) (n : NodeState) (d : Dict (Slot Repository)) :
    Dict (Slot Repository) :=
  addTypes o n (addAll o d n.allProperties)

/-- The slots hold values as they are read. -/
def WereRead (d : Dict (Slot Repository)) : Prop :=
  ∀ key slot, d.get? key = some slot →
    ∃ p : StoredProperty, slot.value = p.natural

/-- The primary type, if it is cached, has a value as a node shows it. -/
def TypeWasRead (d : Dict (Slot Repository)) : Prop :=
  ∀ slot, d.get? primaryTypeName = some slot →
    ∃ p : StoredProperty, slot.value = p.natural

theorem WereRead.typeWasRead {d : Dict (Slot Repository)}
    (hd : WereRead d) : TypeWasRead d :=
  hd primaryTypeName

theorem WereRead.addAll {d : Dict (Slot Repository)} (hd : WereRead d)
    (o : MapOptions) (ps : List StoredProperty) :
    WereRead (addAll o d ps) := by
  induction ps generalizing d with
  | nil => exact hd
  | cons p rest ih =>
    refine ih fun key slot h => ?_
    rcases Dict.of_get?_addNew h with ⟨-, rfl⟩ | h
    · exact ⟨p, rfl⟩
    · exact hd key slot h

theorem run_cacheAll {ps : List StoredProperty}
    (hps : ∀ p ∈ ps, p.WellFormed) (s : MapState Repository) :
    c.map.cacheAll
        (ps.map StoredProperty.toProperty) s =
      (.ok (), { s with cache :=
        ⟨addAll c.options s.cache.slots ps, s.cache.fullyRead⟩ }) := by
  induction ps generalizing s with
  | nil => rfl
  | cons p rest ih =>
    simp only [List.map_cons, cacheAll]
    rw [run_bind, run_discard,
      run_cacheProperty (hps p (List.mem_cons_self ..))]
    exact ih (fun q hq => hps q (List.mem_cons_of_mem _ hq)) _

theorem run_synthesizePrimaryType {n : NodeState}
    (hn : c.node s = n) :
    ∃ w, c.map.synthesizePrimaryType s =
        (.ok (), ⟨⟨s.cache.slots.addNew primaryTypeName
          (pendingSlot n.typeShown.natural), s.cache.fullyRead⟩,
          s.prefixes, w⟩) ∧
      contentOf w = contentOf s.world := by
  unfold synthesizePrimaryType
  rw [run_bind_of_ok (MapM.run_slots s)]
  cases hslot : s.cache.slots.get? primaryTypeName with
  | some slot =>
      rw [Dict.addNew_of_some hslot]
      exact ⟨s.world, by simp [Dict.contains, hslot], rfl⟩
  | none =>
      obtain ⟨w, hcached, hw⟩ := run_cachePrimaryType (c := c) hn
      refine ⟨w, ?_, hw⟩
      simp only [Dict.contains, hslot, Option.isSome_none, if_false,
        Bool.false_eq_true]
      rw [run_discard, hcached]

theorem run_synthesizeResourceType {m : PropertyMap Repository}
    {p : StoredProperty} {slot : Slot Repository}
    (hslot : s.cache.slots.get? primaryTypeName = some slot)
    (hp : slot.value = p.natural) :
    m.synthesizeResourceType s =
      (.ok (), ⟨⟨s.cache.slots.addNew resourceTypeName
        (pendingSlot slot.value), s.cache.fullyRead⟩, s.prefixes,
        s.world⟩) := by
  unfold synthesizeResourceType
  rw [run_bind_of_ok (MapM.run_slots s)]
  cases hset : s.cache.slots.get? resourceTypeName with
  | some slot =>
      rw [Dict.addNew_of_some hset]
      simp [Dict.contains, hset]
  | none =>
      simp only [Dict.contains, hset, Option.isSome_none, if_false,
        Bool.false_eq_true, hslot, hp]
      rw [run_discard, run_cacheValue]

/-- The types are added, once the primary type is. -/
theorem run_synthesizeTypes_of_primary {m : PropertyMap Repository}
    {n : NodeState} {w : World Repository}
    (hs : TypeWasRead s.cache.slots)
    (hfirst : m.synthesizePrimaryType s =
      (.ok (), ⟨⟨s.cache.slots.addNew primaryTypeName
        (pendingSlot n.typeShown.natural), s.cache.fullyRead⟩,
        s.prefixes, w⟩)) :
    m.synthesizeTypes s =
      (.ok (), ⟨⟨addTypes m.provider.options n s.cache.slots,
        s.cache.fullyRead⟩, s.prefixes, w⟩) := by
  unfold synthesizeTypes addTypes
  rw [run_bind_of_ok hfirst]
  cases hsyn : m.provider.options.synthesizeResourceType with
  | false => rfl
  | true =>
      have hslot := Dict.get?_addNew_self s.cache.slots primaryTypeName
        (pendingSlot n.typeShown.natural)
      have hread : ∃ p : StoredProperty,
          ((s.cache.slots.get? primaryTypeName).getD
            (pendingSlot n.typeShown.natural)).value = p.natural := by
        cases hget : s.cache.slots.get? primaryTypeName with
        | some slot => exact hs _ hget
        | none => exact ⟨n.typeShown, rfl⟩
      obtain ⟨p, hp⟩ := hread
      simp only [if_true, hslot]
      exact run_synthesizeResourceType hslot hp

/-- The types are added to slots that hold values as they are read. -/
theorem run_synthesizeTypes {n : NodeState}
    (hn : c.node s = n) (hs : WereRead s.cache.slots) :
    ∃ w, c.map.synthesizeTypes s =
        (.ok (), ⟨⟨addTypes c.options n s.cache.slots,
          s.cache.fullyRead⟩, s.prefixes, w⟩) ∧
      contentOf w = contentOf s.world := by
  obtain ⟨w, hfirst, hw⟩ := run_synthesizePrimaryType (c := c) hn
  exact ⟨w, run_synthesizeTypes_of_primary hs.typeWasRead hfirst, hw⟩

/-- The failure of a full read of a node that cannot be enumerated. -/
def NodeState.enumerationError (n : NodeState) : MapError :=
  .state ("failed to read properties of " ++
      if n.failsPath then "" else n.path)
    (.other ("cannot enumerate properties of " ++ n.path))

theorem run_path (s : MapState Repository) :
    ∃ r, MapM.attempt c.map.node.path s = (.ok r, s) ∧
      r.toOption.getD "" =
        if (c.node s).failsPath then "" else (c.node s).path := by
  refine ⟨if (c.node s).failsPath then
      .error (.other "node is no longer valid") else .ok (c.node s).path,
    ?_, by split <;> rfl⟩
  have hpath : (node c.id c.sid).path s.world =
      ((if (s.world.repo.nodes c.id).failsPath then
          .error (.other "node is no longer valid")
        else .ok (s.world.repo.nodes c.id).path), s.world) := by
    show (nodeState c.id >>= _) s.world = _
    rw [run_bind_of_ok (run_nodeState c.id s.world)]
    split <;> rfl
  show MapM.attempt (node c.id c.sid).path s = _
  rw [MapM.run_attempt, hpath]
  rfl

/-- The properties of well-formed nodes are well-formed. -/
theorem NodeState.WellFormed.of_mem_allProperties {n : NodeState}
    (hn : n.WellFormed) {p : StoredProperty} (hp : p ∈ n.allProperties) :
    p.WellFormed :=
  (hn.of_property?_eq_some (hn.mem_allProperties_iff.1 hp)).2

/-- Where the node can be enumerated, its properties are cached first,
and the types then. -/
theorem run_cacheNode_properties {n : NodeState} (hn : c.node s = n)
    (hwf : n.WellFormed) (hfails : n.failsEnumeration = false) :
    ∃ w, c.map.cacheNode s = c.map.synthesizeTypes
        ⟨⟨addAll c.options s.cache.slots n.allProperties,
          s.cache.fullyRead⟩, s.prefixes, w⟩ ∧
      contentOf w = contentOf s.world := by
  have hproperties : ((node c.id c.sid).properties s.world).1 =
      .ok (n.allProperties.map StoredProperty.toProperty) := by
    rw [run_properties,
      show (s.world.repo.nodes c.id).failsEnumeration = false from
        (congrArg NodeState.failsEnumeration hn :).trans hfails,
      show (s.world.repo.nodes c.id).allProperties = n.allProperties from
        (congrArg NodeState.allProperties hn :)]
    rfl
  obtain ⟨w, henum, hw⟩ := ran_ofAct (keeps_properties c.id c.sid)
    hproperties
  have hprops : ∀ p ∈ n.allProperties, p.WellFormed := by
    intro p hp
    exact hwf.of_mem_allProperties hp
  refine ⟨w, ?_, hw⟩
  unfold cacheNode
  show (MapM.ofAct (node c.id c.sid).properties >>= _) s = _
  rw [run_bind_of_ok henum,
    run_bind_of_ok (run_cacheAll hprops { s with world := w })]

/-- Caching all properties fills the slots. -/
theorem run_cacheNode {n : NodeState} (hn : c.node s = n)
    (hwf : n.WellFormed) (hfails : n.failsEnumeration = false)
    (hread : WereRead s.cache.slots) :
    ∃ w, c.map.cacheNode s =
        (.ok (), ⟨⟨fill c.options n s.cache.slots, s.cache.fullyRead⟩,
          s.prefixes, w⟩) ∧
      contentOf w = contentOf s.world := by
  obtain ⟨w, hrun, hw⟩ := run_cacheNode_properties hn hwf hfails
  have hnode : c.node ⟨⟨addAll c.options s.cache.slots n.allProperties,
      s.cache.fullyRead⟩, s.prefixes, w⟩ = n := by
    rw [← hn]
    exact congrArg (fun r => r.nodes c.id) hw
  obtain ⟨u, htypes, hu⟩ :=
    run_synthesizeTypes (c := c) hnode (hread.addAll _ _)
  refine ⟨u, ?_, hu.trans hw⟩
  rw [hrun]
  exact htypes

/-- A node that cannot be enumerated is not cached. -/
theorem run_cacheNode_of_fails {n : NodeState} (hn : c.node s = n)
    (hfails : n.failsEnumeration = true) :
    ∃ w, c.map.cacheNode s =
        (.error (.repository
          (.other ("cannot enumerate properties of " ++ n.path))),
          { s with world := w }) ∧
      contentOf w = contentOf s.world := by
  have hproperties : ((node c.id c.sid).properties s.world).1 =
      .error (.other ("cannot enumerate properties of " ++ n.path)) := by
    rw [run_properties,
      show (s.world.repo.nodes c.id).failsEnumeration = true from
        (congrArg NodeState.failsEnumeration hn :).trans hfails,
      show (s.world.repo.nodes c.id).path = n.path from
        (congrArg NodeState.path hn :)]
    rfl
  refine ⟨((node c.id c.sid).properties s.world).2, ?_,
    keeps_properties c.id c.sid s.world⟩
  unfold cacheNode
  refine run_bind_of_error ?_ _
  show MapM.ofAct (node c.id c.sid).properties s = _
  rw [MapM.run_ofAct,
    show (node c.id c.sid).properties s.world = (_, _) from
      Prod.ext hproperties rfl]

/-- A first full read caches the node, and notes it if that succeeds. -/
theorem run_readFully_unread (hs : s.cache.fullyRead = false) :
    c.map.readFully s = match c.map.cacheNode s with
      | (.ok _, t) =>
          (.ok (), ⟨⟨t.cache.slots, true⟩, t.prefixes, t.world⟩)
      | (.error e, t) =>
          (.error (whileReading (if (c.node s).failsPath then ""
            else (c.node s).path) e), t) := by
  obtain ⟨r, hpath, hr⟩ := run_path (c := c) s
  unfold readFully
  rw [run_bind_of_ok (MapM.run_isFullyRead s), hs]
  simp only [Bool.false_eq_true, if_false]
  rw [run_bind_of_ok hpath, hr]
  rcases hcached : c.map.cacheNode s with ⟨e | _, t⟩
  · rw [run_bind_of_error (MapM.run_mapError_of_error hcached _)]
  · rw [run_bind_of_ok (MapM.run_mapError_of_ok hcached _)]
    rfl

/-- A full read fills the slots, if the node can be enumerated. -/
theorem run_readFully {n : NodeState} (hn : c.node s = n)
    (hwf : n.WellFormed) (hfails : n.failsEnumeration = false)
    (hs : s.cache.fullyRead = false) (hread : WereRead s.cache.slots) :
    ∃ w, c.map.readFully s =
        (.ok (), ⟨⟨fill c.options n s.cache.slots, true⟩, s.prefixes, w⟩) ∧
      contentOf w = contentOf s.world := by
  obtain ⟨w, hcached, hw⟩ := run_cacheNode hn hwf hfails hread
  refine ⟨w, ?_, hw⟩
  rw [run_readFully_unread hs, hcached]

/-- A full read of a node that cannot be enumerated fails and is not
observed. -/
theorem run_readFully_of_fails {n : NodeState} (hn : c.node s = n)
    (hfails : n.failsEnumeration = true) (hs : s.cache.fullyRead = false) :
    ∃ w, c.map.readFully s =
        (.error n.enumerationError, { s with world := w }) ∧
      contentOf w = contentOf s.world := by
  obtain ⟨w, hcached, hw⟩ := run_cacheNode_of_fails hn hfails
  refine ⟨w, ?_, hw⟩
  rw [run_readFully_unread hs, hcached, hn]
  rfl

end Memory

end ContentProperties
