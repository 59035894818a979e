/-
What a full read leaves, whatever was cached before it. The properties
of the node are walked in their order, and each whose key is not there
yet comes last, under its key; then come the primary type and the
resource type, unless their keys are there by then. Nothing that was
there is touched, and a property is left out only if an earlier entry
has its key (`readFully_leaves`).

The cache need not hold what the node would answer: lookups may have left
slots there that hide properties, and a slot for the primary type that no
property shows. Nor need the properties have their values. What carries
the statement is that the read succeeded, so that every property that had
to be read was.

# Method

`newEntries` walks the properties and remembers the keys that are taken.
The calls of a full read that succeeds are taken apart one by one
(`of_cacheAll`, `cache_of_cacheNode`) and come to `fill`. What `fill` adds
is then a matter of lists (`entries_fill`), and so is what it shows under
the key of a property (`get?_fill_of_first`).
-/
import ContentProperties.Proofs.Conversion.OwnType
import ContentProperties.Proofs.Map.Answers

namespace ContentProperties.Memory

open PropertyMap

-- ========================================================= new entries

/-- The entries that a walk over properties adds: one for each property
whose key is not taken by then. -/
def newEntries (o : MapOptions) (taken : List String) :
    List StoredProperty → List (String × Slot Repository)
  | [] => []
  | p :: rest =>
      if p.key o ∈ taken then newEntries o taken rest
      else (p.key o, p.slot) :: newEntries o (taken ++ [p.key o]) rest

/-- The entry of the primary type that the node is registered with, if
there is none yet. -/
def newPrimaryType (n : NodeState) (es : List (String × Slot Repository)) :
    List (String × Slot Repository) :=
  if (es.lookup primaryTypeName).isNone then
    [(primaryTypeName, pendingSlot (.string n.primaryType))]
  else []

/-- The entry of the resource type, with the value that the primary type
has by now, if it is asked for and there is none yet. -/
def newResourceType (o : MapOptions) (es : List (String × Slot Repository)) :
    List (String × Slot Repository) :=
  if o.synthesizeResourceType ∧ (es.lookup resourceTypeName).isNone then
    (es.lookup primaryTypeName).toList.map fun primary =>
      (resourceTypeName, pendingSlot primary.value)
  else []

/-- Properties that are added come behind all others, as far as they are
new. -/
theorem entries_addAll_eq (o : MapOptions) (d : Dict (Slot Repository))
    (ps : List StoredProperty) :
    (addAll o d ps).entries = d.entries ++ newEntries o d.keys ps := by
  -- the walk goes on with the keys of the slots that it has made
  induction ps generalizing d with
  | nil => exact (List.append_nil _).symm
  | cons p rest ih =>
    show (addAll o (d.addNew (p.key o) p.slot) rest).entries = _
    cases hget : d.get? (p.key o) with
    | some slot =>
        have htaken : p.key o ∈ d.keys := by
          rw [Dict.mem_keys_iff, hget]
          rfl
        rw [Dict.addNew_of_some hget, ih, newEntries, if_pos htaken]
    | none =>
        have hfree : p.key o ∉ d.keys := Dict.lookup_eq_none_iff.1 hget
        have hentries := Dict.entries_addNew_of_none hget p.slot
        have hkeys : (d.addNew (p.key o) p.slot).keys =
            d.keys ++ [p.key o] := by
          rw [Dict.keys, hentries, namesOf, List.map_append]
          rfl
        rw [ih, hentries, hkeys, newEntries, if_neg hfree, List.append_assoc]
        rfl

/-- The types come last, as far as they are new. -/
theorem entries_addTypes (o : MapOptions) (n : NodeState)
    (d : Dict (Slot Repository)) :
    (addTypes o n d).entries = d.entries ++ newPrimaryType n d.entries ++
      newResourceType o (d.entries ++ newPrimaryType n d.entries) := by
  have hprimary : (d.addNew primaryTypeName
      (pendingSlot n.typeShown.natural)).entries =
        d.entries ++ newPrimaryType n d.entries :=
    Dict.entries_addNew d primaryTypeName _
  have hself := Dict.get?_addNew_self d primaryTypeName
    (pendingSlot n.typeShown.natural)
  unfold addTypes
  dsimp only
  rw [hself]
  cases hsyn : o.synthesizeResourceType with
  | false =>
      rw [if_neg Bool.false_ne_true, hprimary, newResourceType, hsyn,
        if_neg (fun h => Bool.false_ne_true h.1), List.append_nil]
  | true =>
      have hfind : (d.entries ++ newPrimaryType n d.entries).lookup
          primaryTypeName = _ :=
        (congrArg (List.lookup primaryTypeName) hprimary).symm.trans hself
      rw [if_pos rfl]
      dsimp only
      rw [Dict.entries_addNew, Dict.get?, hprimary, newResourceType, hsyn,
        hfind]
      simp only [true_and]
      rfl

/-- Filling the slots adds the new entries behind all others. -/
theorem entries_fill (o : MapOptions) (n : NodeState)
    (d : Dict (Slot Repository)) :
    let properties := newEntries o d.keys n.allProperties
    let primary := newPrimaryType n (d.entries ++ properties)
    (fill o n d).entries = d.entries ++ properties ++ primary ++
      newResourceType o (d.entries ++ properties ++ primary) := by
  intro properties primary
  have hadded : (addAll o d n.allProperties).entries =
      d.entries ++ properties := entries_addAll_eq ..
  rw [fill, entries_addTypes, hadded]

/-- The first property with a key that is not taken has its slot. -/
theorem get?_fill_of_first {o : MapOptions} {n : NodeState}
    {d : Dict (Slot Repository)} {before after : List StoredProperty}
    {p : StoredProperty} (hsplit : n.allProperties = before ++ p :: after)
    (hfree : d.get? (p.key o) = none)
    (hfirst : ∀ q ∈ before, q.key o ≠ p.key o) :
    (fill o n d).get? (p.key o) = some p.slot := by
  have hbefore : before.find? (fun q => q.key o = p.key o) = none := by
    rw [List.find?_eq_none]
    exact fun q hq => by simpa using hfirst q hq
  refine get?_addTypes_of_some ?_
  rw [get?_addAll, hfree, hsplit, List.find?_append, hbefore,
    Option.none_or, List.find?_cons_of_pos (by simp)]
  rfl

-- =============================================== what a success has done

/-- A value that was read is the one that the property shows. -/
theorem of_value {p : StoredProperty} {w w' : World Repository} {x : Value}
    (h : p.toProperty.value w = (.ok x, w')) : x = p.natural ∧ w' = w := by
  unfold StoredProperty.toProperty at h
  unfold StoredProperty.natural
  cases hm : p.multiple with
  | true =>
      simp only [hm, if_true] at h ⊢
      cases h
      exact ⟨rfl, rfl⟩
  | false =>
      simp only [hm, Bool.false_eq_true, if_false,
        StoredProperty.first] at h ⊢
      cases hvalues : p.values with
      | nil =>
          rw [hvalues] at h
          cases h
      | cons v rest =>
          rw [hvalues] at h
          cases h
          exact ⟨rfl, rfl⟩

theorem of_readSlot {p : StoredProperty} {w w' : World Repository}
    {slot : Slot Repository} (h : readSlot p.toProperty w = (.ok slot, w')) :
    slot = p.slot ∧ w' = w := by
  obtain ⟨entry, u, hentry, hslot⟩ := ok_of_run_bind h
  obtain ⟨x, u', hx, hdone⟩ := ok_of_run_bind hslot
  cases hdone
  unfold Entry.ofProperty at hentry
  by_cases htype : p.type = .binary
  · rw [show (p.toProperty (σ := Repository)).type = .binary from htype,
      if_pos rfl] at hentry
    cases hentry
    -- the value is not kept with the entry, but read now
    obtain ⟨rfl, rfl⟩ := of_value hx
    exact ⟨by rw [StoredProperty.slot, if_pos htype]; rfl, rfl⟩
  · rw [if_neg (show (p.toProperty (σ := Repository)).type ≠ .binary from
      htype)] at hentry
    obtain ⟨y, u'', hy, hmade⟩ := ok_of_run_bind hentry
    obtain ⟨rfl, rfl⟩ := of_value hy
    cases hmade
    cases hx
    exact ⟨by rw [StoredProperty.slot, if_neg htype]; rfl, rfl⟩

variable {c : Site} {s t : MapState Repository}

/-- A property that could be cached has its slot, unless its key had
one. -/
theorem of_cacheProperty {p : StoredProperty} {slot : Slot Repository}
    (h : c.map.cacheProperty p.toProperty s = (.ok slot, t)) :
    t = { s with cache := ⟨s.cache.slots.addNew (p.key c.options) p.slot,
      s.cache.fullyRead⟩ } := by
  unfold cacheProperty at h
  rw [run_bind_of_ok (MapM.run_slots s),
    show decodeName c.map.provider.options.legacyPathEncoding
      (p.toProperty (σ := Repository)).name = p.key c.options from rfl] at h
  cases hslot : s.cache.slots.get? (p.key c.options) with
  | some old =>
      rw [hslot] at h
      cases h
      rw [Dict.addNew_of_some hslot]
  | none =>
      rw [hslot] at h
      obtain ⟨read, u, hread, h⟩ := ok_of_run_bind h
      obtain ⟨w, hrun, rfl⟩ := MapM.ok_of_run_ofAct hread
      obtain ⟨rfl, rfl⟩ := of_readSlot hrun
      cases h
      rw [Dict.addNew_of_none hslot]

theorem of_cacheAll {ps : List StoredProperty}
    (h : c.map.cacheAll (ps.map StoredProperty.toProperty) s =
      (.ok (), t)) :
    t = { s with cache :=
      ⟨addAll c.options s.cache.slots ps, s.cache.fullyRead⟩ } := by
  induction ps generalizing s with
  | nil =>
    cases h
    rfl
  | cons p rest ih =>
    obtain ⟨_, u, hfirst, h⟩ := ok_of_run_bind h
    obtain ⟨slot, hcached⟩ := ok_of_run_discard hfirst
    rw [ih h, of_cacheProperty hcached]
    rfl

/-- A value that could be cached has its slot, unless its key had one. -/
theorem cache_of_cacheValue {key : String} {x : Value}
    {slot : Slot Repository}
    (h : c.map.cacheValue key x s = (.ok slot, t)) :
    t.cache = ⟨s.cache.slots.addNew key (pendingSlot x),
      s.cache.fullyRead⟩ := by
  unfold cacheValue at h
  rw [run_bind_of_ok (MapM.run_slots s)] at h
  cases hslot : s.cache.slots.get? key with
  | some old =>
      rw [hslot] at h
      cases h
      rw [Dict.addNew_of_some hslot]
  | none =>
      rw [hslot] at h
      obtain ⟨entry, u, hmade, h⟩ := ok_of_run_bind h
      obtain ⟨w, hrun, rfl⟩ := MapM.ok_of_run_ofEntry hmade
      obtain ⟨rfl, -⟩ := Entry.of_ofValue hrun
      cases h
      rw [Dict.addNew_of_none hslot]
      rfl

theorem cache_of_synthesizeResourceType {primary : Slot Repository}
    (hprimary : s.cache.slots.get? primaryTypeName = some primary)
    (h : c.map.synthesizeResourceType s = (.ok (), t)) :
    t.cache = ⟨s.cache.slots.addNew resourceTypeName
      (pendingSlot primary.value), s.cache.fullyRead⟩ := by
  unfold synthesizeResourceType at h
  rw [run_bind_of_ok (MapM.run_slots s)] at h
  cases hset : s.cache.slots.get? resourceTypeName with
  | some slot =>
      simp only [Dict.contains, hset, Option.isSome_some, if_true] at h
      cases h
      rw [Dict.addNew_of_some hset]
  | none =>
      simp only [Dict.contains, hset, Option.isSome_none, if_false,
        Bool.false_eq_true, hprimary] at h
      obtain ⟨slot, hcached⟩ := ok_of_run_discard h
      exact cache_of_cacheValue hcached

theorem cache_of_synthesizeTypes
    (h : c.map.synthesizeTypes s = (.ok (), t)) :
    t.cache = ⟨addTypes c.options (c.node s) s.cache.slots,
      s.cache.fullyRead⟩ := by
  obtain ⟨w, hfirst, -⟩ := run_synthesizePrimaryType (c := c) (s := s) rfl
  unfold synthesizeTypes at h
  rw [run_bind_of_ok hfirst,
    show c.map.provider.options = c.options from rfl] at h
  have hself := Dict.get?_addNew_self s.cache.slots primaryTypeName
    (pendingSlot (c.node s).typeShown.natural)
  unfold addTypes
  dsimp only
  rw [hself]
  cases hsyn : c.options.synthesizeResourceType with
  | false =>
      rw [hsyn] at h
      cases h
      rfl
  | true =>
      rw [hsyn] at h
      exact cache_of_synthesizeResourceType hself h

/-- What an enumeration yields are the properties of the node. -/
theorem of_properties {ps : List (Property Repository)}
    (h : MapM.ofAct c.map.node.properties s = (.ok ps, t)) :
    ps = (c.node s).allProperties.map StoredProperty.toProperty ∧
      t.cache = s.cache ∧ c.node t = c.node s := by
  have hkept := keeps_properties c.id c.sid s.world
  have hyields := run_properties c.id c.sid s.world
  obtain ⟨w, hrun, rfl⟩ := MapM.ok_of_run_ofAct h
  rw [show (node c.id c.sid).properties s.world = _ from hrun]
    at hkept hyields
  refine ⟨?_, rfl, congrArg (fun r => r.nodes c.id) hkept⟩
  split at hyields
  · cases hyields
  · exact Except.ok.inj hyields

/-- Caching a node that succeeds has filled the slots. -/
theorem cache_of_cacheNode (h : c.map.cacheNode s = (.ok (), t)) :
    t.cache = ⟨fill c.options (c.node s) s.cache.slots,
      s.cache.fullyRead⟩ := by
  obtain ⟨ps, u, hproperties, hrest⟩ := ok_of_run_bind h
  obtain ⟨_, r, hall, htypes⟩ := ok_of_run_bind hrest
  obtain ⟨rfl, hcache, hu⟩ := of_properties hproperties
  have hr := of_cacheAll hall
  have hnode : c.node r = c.node s := by
    rw [hr]
    exact hu
  rw [cache_of_synthesizeTypes htypes, hnode, hr, hcache]
  rfl

/-- A first full read that succeeds has filled the slots. -/
theorem cache_of_readFully (hs : s.cache.fullyRead = false)
    (h : c.map.readFully s = (.ok (), t)) :
    t.cache = ⟨fill c.options (c.node s) s.cache.slots, true⟩ := by
  rw [run_readFully_unread hs] at h
  rcases hrun : c.map.cacheNode s with ⟨e | _, u⟩ <;> rw [hrun] at h <;>
    cases h
  rw [cache_of_cacheNode hrun]

-- ============================================================= the view

/-- A first full read that succeeds leaves, behind the entries that were
there, the properties of the node in their order whose keys were not
taken, then the primary type and then the resource type, unless their keys
were. A property has its entry unless one from before the read, or a
property in front of it, has its key. The read does succeed if the node
can be enumerated and the cache holds values as they are read. -/
theorem readFully_leaves (c : Site) (s : MapState Repository)
    (hunread : s.cache.fullyRead = false) :
    let n := c.node s
    let cached := s.cache.slots.entries
    let properties := newEntries c.options (namesOf cached) n.allProperties
    let primary := newPrimaryType n (cached ++ properties)
    let resource :=
      newResourceType c.options (cached ++ properties ++ primary)
    (∀ t, c.map.readFully s = (.ok (), t) →
      t.cache.fullyRead = true ∧
      t.cache.slots.entries = cached ++ properties ++ primary ++ resource ∧
      ∀ before p after, n.allProperties = before ++ p :: after →
        p.key c.options ∉ namesOf cached →
        (∀ q ∈ before, q.key c.options ≠ p.key c.options) →
        (p.key c.options, p.slot) ∈ t.cache.slots.entries) ∧
    (n.WellFormed → n.failsEnumeration = false → WereRead s.cache.slots →
      (c.map.readFully s).1 = .ok ()) := by
  intro n cached properties primary resource
  refine ⟨fun t hread => ?_, fun hwf hfails hcached => ?_⟩
  · have ht : t.cache = ⟨fill c.options n s.cache.slots, true⟩ :=
      cache_of_readFully hunread hread
    rw [ht]
    refine ⟨rfl, entries_fill .., ?_⟩
    intro before p after hsplit hfree hfirst
    exact Dict.mem_entries_iff.2 (get?_fill_of_first hsplit
      (Dict.lookup_eq_none_iff.2 hfree) hfirst)
  · obtain ⟨w, hrun, -⟩ := run_readFully rfl hwf hfails hunread hcached
    rw [hrun]

/-- A node that does not show its type, with a size and with two titles of
one key, the newer of which has been looked up. -/
def newerTitleRead : MapState Repository :=
  (Site.sample.map.get? "my title" ⟨.empty, none, ⟨.empty,
    (((Repository.empty.modifyNode 0 fun n =>
        { n with hidesPrimaryType := true }).withProperty 0
      (.single "my_x0020_title" .string (.string "old"))).withProperty 0
      (.single "my title" .string (.string "new"))).withProperty 0
      (.single "size" .long (.long 7))⟩⟩).2

/-- A full read adds the size and the types, and leaves the older title
out. -/
theorem readFully_after_newer_title :
    ∃ t, newerTitleRead.cache.fullyRead = false ∧
      Site.sample.map.readFully newerTitleRead = (.ok (), t) ∧
      namesOf newerTitleRead.cache.slots.entries = ["my title"] ∧
      t.cache.slots.entries.map (fun e => (e.1, e.2.value)) =
        [("my title", .string "new"), ("size", .long 7),
          (primaryTypeName, .string unstructuredType),
          (resourceTypeName, .string unstructuredType)] := by
  have hunread : newerTitleRead.cache.fullyRead = false := rfl
  have hok : (Site.sample.map.readFully newerTitleRead).1 = .ok () := rfl
  have hread : Site.sample.map.readFully newerTitleRead =
      (.ok (), (Site.sample.map.readFully newerTitleRead).2) :=
    Prod.ext hok rfl
  obtain ⟨-, hentries, -⟩ :=
    (readFully_leaves Site.sample newerTitleRead hunread).1 _ hread
  refine ⟨_, hunread, hread, rfl, ?_⟩
  rw [hentries]
  rfl

end ContentProperties.Memory
