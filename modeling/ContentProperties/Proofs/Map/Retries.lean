/-
Full reads that fail and are tried again. The node of the map may be any
node over one in memory that passes the calls of a full read on or fails
them with an error of its own (`Wraps`), each attempt by its own rule. A
full read asks the node for its properties and then, if none of them
shows it, for its primary type. It stops at the first of these that
fails (`Stops`), and so it leaves either the cache that it found or one
with all properties and without the types.

# Why nothing is lost

The second kind of cache is absorbed by the next attempt: it adds the
properties again, and each finds its key taken, if not by itself then by
what kept it out before (`fill_addAll`). So after any number of attempts
there are still only these two caches (`FailedReads.cache_cases`, by
induction over the attempts), and a read that succeeds makes the same of
both.
-/
import ContentProperties.Proofs.Map.CachedTypes
import ContentProperties.Repository.Faulty

namespace ContentProperties.Memory

open PropertyMap

-- ============================================= calls that may fail first

variable {α : Type} {inner outer : Call α} {w t : World Repository}

/-- The call is passed on, or it fails before anything happens. -/
def PassedOn (inner outer : Call α) : Prop :=
  ∀ w, outer w = inner w ∨ ∃ e, outer w = (.error e, w)

theorem passedOn_self (call : Call α) : PassedOn call call :=
  fun _ => .inl rfl

theorem passedOn_guarded (id : Nat) (method : Method) (call : Call α) :
    PassedOn call (guarded id method call) := by
  intro w
  unfold guarded
  rw [run_bind_of_ok (show Act.look _ w =
    (.ok ((w.repo.faults id).failure? method), w) from rfl)]
  cases (w.repo.faults id).failure? method with
  | none => exact .inl rfl
  | some e => exact .inr ⟨e, rfl⟩

theorem PassedOn.keeps (h : PassedOn inner outer)
    (hinner : Keeps contentOf inner) : Keeps contentOf outer := by
  intro w
  rcases h w with heq | ⟨e, heq⟩ <;> rw [heq]
  exact hinner w

theorem PassedOn.run_inner (h : PassedOn inner outer) {a : α}
    (hrun : outer w = (.ok a, t)) : inner w = (.ok a, t) := by
  rcases h w with heq | ⟨e, heq⟩
  · rw [← heq, hrun]
  · rw [hrun] at heq
    cases heq

/-- The node passes on the calls of a full read to the node of the site,
or fails them. Of its other calls nothing is said. -/
structure Wraps (c : Site) (outer : Node Repository) : Prop where
  path : PassedOn (node c.id c.sid).path outer.path
  properties : PassedOn (node c.id c.sid).properties outer.properties
  primaryType : PassedOn (node c.id c.sid).primaryType outer.primaryType

theorem wraps_node (c : Site) : Wraps c (node c.id c.sid) :=
  ⟨passedOn_self _, passedOn_self _, passedOn_self _⟩

/-- A faulty node is one that passes calls on, unless a fault is set. -/
theorem wraps_faultyNode (c : Site) : Wraps c (faultyNode c.id c.sid) :=
  ⟨passedOn_guarded _ _ _, passedOn_guarded _ _ _, passedOn_guarded _ _ _⟩

/-- The map of the site over another node. -/
def Site.over (c : Site) (outer : Node Repository) :
    PropertyMap Repository :=
  ⟨outer, c.provider, c.writable⟩

theorem Site.node_over (c : Site) (outer : Node Repository) :
    (c.over outer).node = outer := rfl

/-- The error that stops a full read: the one with which the enumeration
fails, or else the question for the primary type after it. -/
def Stops (outer : Node Repository) (w : World Repository)
    (e : RepositoryError) : Prop :=
  (outer.properties w).1 = .error e ∨
    (∃ ps, (outer.properties w).1 = .ok ps) ∧
      (outer.primaryType (outer.properties w).2).1 = .error e

/-- The message of a full read that fails: the path of the node, as far as
it can be told. -/
def readingText (outer : Node Repository) (w : World Repository) : String :=
  "failed to read properties of " ++ (outer.path w).1.toOption.getD ""

-- ============================================================ what stays

/-- The nodes show the same to a full read. -/
structure NodeState.ShowsAs (n n' : NodeState) : Prop where
  properties : n'.allProperties = n.allProperties
  primaryType : n'.primaryType = n.primaryType

namespace NodeState.ShowsAs

variable {n n' n'' : NodeState}

theorem refl (n : NodeState) : n.ShowsAs n := ⟨rfl, rfl⟩

theorem trans (h : n.ShowsAs n') (h' : n'.ShowsAs n'') : n.ShowsAs n'' :=
  ⟨h'.properties.trans h.properties, h'.primaryType.trans h.primaryType⟩

theorem of_eq (h : n' = n) : n.ShowsAs n' := h ▸ refl n'

theorem fill_eq (h : n.ShowsAs n') (o : MapOptions)
    (d : Dict (Slot Repository)) : fill o n' d = fill o n d := by
  simp only [fill, addTypes, NodeState.typeShown, h.properties,
    h.primaryType]

end NodeState.ShowsAs

/-- Properties whose keys are all taken add nothing. -/
theorem addAll_of_isSome {o : MapOptions} {d : Dict (Slot Repository)}
    {ps : List StoredProperty}
    (h : ∀ p ∈ ps, (d.get? (p.key o)).isSome) : addAll o d ps = d := by
  induction ps with
  | nil => rfl
  | cons p rest ih =>
    obtain ⟨slot, hslot⟩ :=
      Option.isSome_iff_exists.1 (h p List.mem_cons_self)
    show addAll o (d.addNew (p.key o) p.slot) rest = d
    rw [Dict.addNew_of_some hslot]
    exact ih fun q hq => h q (List.mem_cons_of_mem _ hq)

theorem addAll_addAll (o : MapOptions) (d : Dict (Slot Repository))
    (ps : List StoredProperty) :
    addAll o (addAll o d ps) ps = addAll o d ps :=
  addAll_of_isSome fun _ hp => isSome_get?_addAll hp

/-- A full read makes the same of a cache and of what an earlier one left
of it that did not get to the types. -/
theorem fill_addAll (o : MapOptions) (n : NodeState)
    (d : Dict (Slot Repository)) :
    fill o n (addAll o d n.allProperties) = fill o n d := by
  rw [fill, addAll_addAll, fill]

-- ========================================================== one attempt

variable {c : Site} {s t u : MapState Repository}
  {outer : Node Repository}

theorem cacheAll_over (c : Site) (outer : Node Repository)
    (ps : List (Property Repository)) :
    (c.over outer).cacheAll ps = c.map.cacheAll ps := by
  induction ps with
  | nil => rfl
  | cons p rest ih =>
    unfold cacheAll
    rw [ih]
    rfl

/-- The primary type is cached, unless the question for it fails. -/
theorem synthesizePrimaryType_cases (hwraps : Wraps c outer)
    (s : MapState Repository) :
    (∃ e w, outer.primaryType s.world = (.error e, w) ∧
      (c.over outer).synthesizePrimaryType s =
        (.error (.repository e), { s with world := w })) ∨
    ∃ w, contentOf w = contentOf s.world ∧
      (c.over outer).synthesizePrimaryType s =
        (.ok (), ⟨⟨s.cache.slots.addNew primaryTypeName
          (pendingSlot (c.node s).typeShown.natural), s.cache.fullyRead⟩,
          s.prefixes, w⟩) := by
  unfold synthesizePrimaryType
  rw [run_bind_of_ok (MapM.run_slots s)]
  cases hslot : s.cache.slots.get? primaryTypeName with
  | some slot =>
      rw [Dict.addNew_of_some hslot]
      exact .inr ⟨s.world, rfl, by simp [Dict.contains, hslot]⟩
  | none =>
      simp only [Dict.contains, hslot, Option.isSome_none, if_false,
        Bool.false_eq_true]
      have hkept := hwraps.primaryType.keeps
        (keeps_primaryType c.id c.sid) s.world
      have hasked := MapM.run_ofAct outer.primaryType s
      rcases hask : outer.primaryType s.world with ⟨e | name, w⟩ <;>
        rw [hask] at hkept hasked
      · refine .inl ⟨e, w, rfl, ?_⟩
        rw [run_discard, cachePrimaryType, Site.node_over,
          run_bind_of_error hasked]
      · have hname : name = (c.node s).primaryType := by
          have hinner := run_primaryType c.id c.sid s.world
          rw [hwraps.primaryType.run_inner hask] at hinner
          exact Except.ok.inj hinner
        refine .inr ⟨w, hkept, ?_⟩
        rw [run_discard, cachePrimaryType, Site.node_over,
          run_bind_of_ok hasked, hname,
          show Value.string (c.node s).primaryType =
            (c.node s).typeShown.natural from rfl, run_cacheValue]

/-- The types are cached, unless the question for the primary type
fails. -/
theorem synthesizeTypes_cases (hwraps : Wraps c outer)
    (htype : TypeWasRead s.cache.slots) :
    (∃ e w, outer.primaryType s.world = (.error e, w) ∧
      (c.over outer).synthesizeTypes s =
        (.error (.repository e), { s with world := w })) ∨
    ∃ w, contentOf w = contentOf s.world ∧
      (c.over outer).synthesizeTypes s =
        (.ok (), ⟨⟨addTypes c.options (c.node s) s.cache.slots,
          s.cache.fullyRead⟩, s.prefixes, w⟩) := by
  rcases synthesizePrimaryType_cases hwraps s with
    ⟨e, w, hask, hrun⟩ | ⟨w, hw, hrun⟩
  · refine .inl ⟨e, w, hask, ?_⟩
    rw [synthesizeTypes, run_bind_of_error hrun]
  · exact .inr ⟨w, hw, run_synthesizeTypes_of_primary htype hrun⟩

/-- What the enumeration of such a node yields, if it succeeds, are the
properties of the node. -/
theorem Wraps.of_properties (hwraps : Wraps c outer)
    {ps : List (Property Repository)} {w : World Repository}
    (h : outer.properties s.world = (.ok ps, w)) :
    ps = (c.node s).allProperties.map StoredProperty.toProperty ∧
      contentOf w = contentOf s.world := by
  have hkept := hwraps.properties.keeps (keeps_properties c.id c.sid) s.world
  have hinner := run_properties c.id c.sid s.world
  rw [h] at hkept
  rw [hwraps.properties.run_inner h] at hinner
  refine ⟨?_, hkept⟩
  split at hinner
  · cases hinner
  · exact Except.ok.inj hinner

/-- Caching the node fails with what stops a full read, before or after
the properties are cached, or it fills the slots. -/
theorem cacheNode_cases (hwraps : Wraps c outer)
    (hps : ∀ p ∈ (c.node s).allProperties, p.WellFormed)
    (htype : TypeWasRead s.cache.slots) :
    (∃ e t, Stops outer s.world e ∧
      (c.over outer).cacheNode s = (.error (.repository e), t) ∧
      contentOf t.world = contentOf s.world ∧
      (t.cache = s.cache ∨ t.cache = ⟨addAll c.options s.cache.slots
        (c.node s).allProperties, s.cache.fullyRead⟩)) ∨
    ∃ t, (c.over outer).cacheNode s = (.ok (), t) ∧
      contentOf t.world = contentOf s.world ∧
      t.cache = ⟨fill c.options (c.node s) s.cache.slots,
        s.cache.fullyRead⟩ := by
  unfold cacheNode
  rw [Site.node_over]
  have hasked := MapM.run_ofAct outer.properties s
  have hkept := hwraps.properties.keeps (keeps_properties c.id c.sid) s.world
  rcases henum : outer.properties s.world with ⟨e | ps, w⟩ <;>
    rw [henum] at hasked hkept
  · exact .inl ⟨e, _, .inl (congrArg Prod.fst henum),
      run_bind_of_error hasked _, hkept, .inl rfl⟩
  obtain ⟨rfl, -⟩ := hwraps.of_properties henum
  let r : MapState Repository := ⟨⟨addAll c.options s.cache.slots
    (c.node s).allProperties, s.cache.fullyRead⟩, s.prefixes, w⟩
  have hall : (c.over outer).cacheAll ((c.node s).allProperties.map
      StoredProperty.toProperty) { s with world := w } = (.ok (), r) := by
    rw [cacheAll_over, run_cacheAll hps]
  have hnode : c.node r = c.node s := congrArg (fun r => r.nodes c.id) hkept
  rw [run_bind_of_ok hasked, run_bind_of_ok hall]
  rcases synthesizeTypes_cases hwraps (s := r) (htype.addAll _ _) with
    ⟨e, v, hask, hrun⟩ | ⟨v, hv, hrun⟩
  · have hstays := hwraps.primaryType.keeps (keeps_primaryType c.id c.sid) w
    rw [show outer.primaryType w = (.error e, v) from hask] at hstays
    refine .inl ⟨e, _, .inr ⟨⟨_, congrArg Prod.fst henum⟩, ?_⟩, hrun,
      hstays.trans hkept, .inr rfl⟩
    rw [henum]
    exact congrArg Prod.fst hask
  · refine .inr ⟨_, hrun, hv.trans hkept, ?_⟩
    rw [hnode]
    rfl

/-- An attempt at a full read that is not noted yet. It stops with an
error of the node and leaves one of two caches, or it fills the cache and
is noted. -/
theorem readFully_cases (hwraps : Wraps c outer)
    (hps : ∀ p ∈ (c.node s).allProperties, p.WellFormed)
    (htype : TypeWasRead s.cache.slots)
    (hunread : s.cache.fullyRead = false) :
    (∃ e t, Stops outer (outer.path s.world).2 e ∧
      (c.over outer).readFully s =
        (.error (.state (readingText outer s.world) e), t) ∧
      c.node t = c.node s ∧
      (t.cache = s.cache ∨ t.cache = ⟨addAll c.options s.cache.slots
        (c.node s).allProperties, false⟩)) ∨
    ∃ t, (c.over outer).readFully s = (.ok (), t) ∧
      c.node t = c.node s ∧
      t.cache = ⟨fill c.options (c.node s) s.cache.slots, true⟩ := by
  have hkept := hwraps.path.keeps (keeps_path c.id c.sid) s.world
  let r : MapState Repository := { s with world := (outer.path s.world).2 }
  have hnode : c.node r = c.node s := congrArg (fun r => r.nodes c.id) hkept
  have hpath : MapM.attempt (c.over outer).node.path s =
      (.ok (outer.path s.world).1, r) := rfl
  rw [readFully_of_unread hunread, run_bind_of_ok hpath]
  rcases cacheNode_cases hwraps (s := r) (hnode ▸ hps) htype with
    ⟨e, t, hstops, hrun, ht, hcache⟩ | ⟨t, hrun, ht, hcache⟩
  · refine .inl ⟨e, t, hstops, ?_,
      congrArg (fun r => r.nodes c.id) (ht.trans hkept), ?_⟩
    · rw [run_bind_of_error (MapM.run_mapError_of_error hrun _)]
      rfl
    · rw [hnode, show r.cache.fullyRead = false from hunread] at hcache
      exact hcache
  · refine .inr ⟨⟨⟨t.cache.slots, true⟩, t.prefixes, t.world⟩, ?_,
      congrArg (fun r => r.nodes c.id) (ht.trans hkept), ?_⟩
    · rw [run_bind_of_ok (MapM.run_mapError_of_ok hrun _)]
      rfl
    · rw [hcache, hnode]

/-- A full read that fails was not noted before. -/
theorem unread_of_readFully {σ : Type} {m : PropertyMap σ}
    {s t : MapState σ} {e : MapError}
    (h : m.readFully s = (.error e, t)) : s.cache.fullyRead = false := by
  cases hs : s.cache.fullyRead with
  | false => rfl
  | true =>
      rw [readFully_of_fullyRead hs] at h
      cases h

/-- A node in memory stops no full read, unless it was made to. -/
theorem not_stops_node {w : World Repository}
    (h : (w.repo.nodes c.id).failsEnumeration = false)
    (e : RepositoryError) : ¬Stops (node c.id c.sid) w e := by
  rintro (hlist | ⟨-, htype⟩)
  · rw [run_properties, h] at hlist
    cases hlist
  · rw [run_primaryType] at htype
    cases htype

/-- The cache after a full read: filled, unless that was noted before. -/
def Site.filled (c : Site) (s : MapState Repository) : Cache Repository :=
  if s.cache.fullyRead then s.cache
  else ⟨fill c.options (c.node s) s.cache.slots, true⟩

theorem Site.filled_congr (hcache : t.cache = s.cache)
    (hshows : (c.node s).ShowsAs (c.node t)) : c.filled t = c.filled s := by
  rw [filled, filled, hcache, hshows.fill_eq]

/-- A full read that succeeds has filled the cache. -/
theorem cache_of_readFully_over (hwraps : Wraps c outer)
    (hps : ∀ p ∈ (c.node s).allProperties, p.WellFormed)
    (htype : TypeWasRead s.cache.slots)
    (hrun : (c.over outer).readFully s = (.ok (), t)) :
    t.cache = c.filled s := by
  cases hs : s.cache.fullyRead with
  | true =>
      rw [readFully_of_fullyRead hs] at hrun
      cases hrun
      rw [Site.filled, if_pos hs]
  | false =>
      rcases readFully_cases hwraps hps htype hs with
        ⟨e, t', -, hrun', -⟩ | ⟨t', hrun', -, hcache⟩ <;>
        rw [hrun] at hrun' <;> cases hrun'
      rw [hcache, Site.filled, if_neg (by simp [hs])]

/-- A full read succeeds if nothing stops it. -/
theorem readFully_of_not_stops (hwraps : Wraps c outer)
    (hps : ∀ p ∈ (c.node s).allProperties, p.WellFormed)
    (htype : TypeWasRead s.cache.slots)
    (hgoes : ∀ e, ¬Stops outer (outer.path s.world).2 e) :
    ∃ t, (c.over outer).readFully s = (.ok (), t) := by
  cases hs : s.cache.fullyRead with
  | true => exact ⟨s, readFully_of_fullyRead hs⟩
  | false =>
      rcases readFully_cases hwraps hps htype hs with
        ⟨e, -, hstops, -⟩ | ⟨t, hrun, -⟩
      · exact absurd hstops (hgoes e)
      · exact ⟨t, hrun⟩

/-- The full read of a node in memory that can be enumerated. -/
theorem readFully_node
    (hps : ∀ p ∈ (c.node s).allProperties, p.WellFormed)
    (htype : TypeWasRead s.cache.slots)
    (hcan : (c.node s).failsEnumeration = false) :
    ∃ t, c.map.readFully s = (.ok (), t) ∧ t.cache = c.filled s := by
  have hcontent := keeps_path c.id c.sid s.world
  have hgoes : ∀ e, ¬Stops (node c.id c.sid)
      ((node c.id c.sid).path s.world).2 e := by
    apply not_stops_node
    rw [← hcan]
    exact (congrArg NodeState.failsEnumeration
      (node_congr c.id hcontent) :)
  obtain ⟨t, hrun⟩ :=
    readFully_of_not_stops (wraps_node c) hps htype hgoes
  exact ⟨t, hrun, cache_of_readFully_over (wraps_node c) hps htype hrun⟩

-- ======================================================== many attempts

/-- What failed full reads leave of a state: a node that shows the same,
and the cache as it was or with all properties and without the types. -/
structure LeftOver (c : Site) (s t : MapState Repository) : Prop where
  shows : (c.node s).ShowsAs (c.node t)
  cache : t.cache = s.cache ∨ (s.cache.fullyRead = false ∧
    t.cache = ⟨addAll c.options s.cache.slots (c.node s).allProperties,
      false⟩)

namespace LeftOver

variable (h : LeftOver c s t)

include h

theorem wellFormed (hps : ∀ p ∈ (c.node s).allProperties, p.WellFormed) :
    ∀ p ∈ (c.node t).allProperties, p.WellFormed := by
  rw [h.shows.properties]
  exact hps

theorem typeWasRead (htype : TypeWasRead s.cache.slots) :
    TypeWasRead t.cache.slots := by
  rcases h.cache with heq | ⟨-, heq⟩ <;> rw [heq]
  · exact htype
  · exact htype.addAll _ _

theorem keeps_entries :
    s.cache.slots.entries <+: t.cache.slots.entries := by
  rcases h.cache with heq | ⟨-, heq⟩
  · exact heq ▸ List.prefix_rfl
  · rw [heq, entries_addAll_eq]
    exact List.prefix_append ..

/-- The next full read makes of it what it would have made at first. -/
theorem filled_eq : c.filled t = c.filled s := by
  rcases h.cache with heq | ⟨hs, heq⟩
  · exact Site.filled_congr heq h.shows
  · rw [Site.filled, Site.filled, heq, if_neg Bool.false_ne_true,
      if_neg (by simp [hs]), h.shows.fill_eq, fill_addAll]

/-- An attempt that fails leaves what was left before. -/
theorem again (hwraps : Wraps c outer)
    (hps : ∀ p ∈ (c.node s).allProperties, p.WellFormed)
    (htype : TypeWasRead s.cache.slots) {e : MapError}
    (hrun : (c.over outer).readFully t = (.error e, u)) :
    LeftOver c s u := by
  have hunread := unread_of_readFully hrun
  rcases readFully_cases hwraps (h.wellFormed hps) (h.typeWasRead htype)
      hunread with ⟨e', u', -, hrun', hnode, hleft⟩ | ⟨u', hrun', -⟩ <;>
    rw [hrun] at hrun' <;> cases hrun'
  refine ⟨h.shows.trans (.of_eq hnode), ?_⟩
  rw [h.shows.properties] at hleft
  rcases h.cache with heq | ⟨hs, heq⟩ <;> rw [heq] at hleft hunread
  · rcases hleft with hleft | hleft
    · exact .inl hleft
    · exact .inr ⟨hunread, hleft⟩
  · -- the properties were there already
    rw [addAll_addAll, or_self] at hleft
    exact .inr ⟨hs, hleft⟩

end LeftOver

/-- Full reads of a site that failed, one after the other, on nodes that
wrap its node, each on one of its own. Between them anything may happen
that leaves alone what the node shows. -/
inductive FailedReads (c : Site) (s : MapState Repository) :
    MapState Repository → Prop
  | none : FailedReads c s s
  | again {t u : MapState Repository} {outer : Node Repository}
      {e : MapError} (h : FailedReads c s t) (hwraps : Wraps c outer)
      (hrun : (c.over outer).readFully t = (.error e, u)) :
      FailedReads c s u
  | between {t u : MapState Repository} (h : FailedReads c s t)
      (hcache : u.cache = t.cache)
      (hnode : (c.node t).ShowsAs (c.node u)) : FailedReads c s u

/-- However often a full read has failed, nothing else is left. -/
theorem FailedReads.leftOver (h : FailedReads c s t)
    (hps : ∀ p ∈ (c.node s).allProperties, p.WellFormed)
    (htype : TypeWasRead s.cache.slots) : LeftOver c s t := by
  induction h with
  | none => exact ⟨.refl _, .inl rfl⟩
  | again _ hwraps hrun ih => exact ih.again hwraps hps htype hrun
  | between _ hcache hnode ih =>
    exact ⟨ih.shows.trans hnode, hcache ▸ ih.cache⟩

/-- Failed full reads can be tried again. Before the attempt that is
looked at, any number of them have failed. If it fails too, it does so
with the message that the properties cannot be read and, as its cause,
the error of the node that stopped it; it is not noted as a full read,
and the entries that were there at first are still there, in front. It
does not fail unless the node stops it. And if it succeeds, the cache is
the one that a single full read of the node in memory makes of the cache
that was there at first. -/
theorem FailedReads.lose_nothing (h : FailedReads c s t)
    (hwf : (c.node s).WellFormed) (htype : TypeWasRead s.cache.slots)
    (hwraps : Wraps c outer) :
    (∀ e u, (c.over outer).readFully t = (.error e, u) →
      (∃ cause, Stops outer (outer.path t.world).2 cause ∧
        e = .state (readingText outer t.world) cause) ∧
      u.cache.fullyRead = false ∧
      s.cache.slots.entries <+: u.cache.slots.entries) ∧
    ((∀ cause, ¬Stops outer (outer.path t.world).2 cause) →
      ∃ u, (c.over outer).readFully t = (.ok (), u)) ∧
    ∀ u, (c.over outer).readFully t = (.ok (), u) →
      ∀ v, v.cache = s.cache → (c.node s).ShowsAs (c.node v) →
        (c.node v).failsEnumeration = false →
        ∃ r, c.map.readFully v = (.ok (), r) ∧ r.cache = u.cache := by
  have hps : ∀ p ∈ (c.node s).allProperties, p.WellFormed :=
    fun p hp => hwf.of_mem_allProperties hp
  have hleft : LeftOver c s t := h.leftOver hps htype
  have hps' := hleft.wellFormed hps
  have htype' := hleft.typeWasRead htype
  refine ⟨fun e u hrun => ?_, readFully_of_not_stops hwraps hps' htype',
    fun u hrun v hcache hshows hcan => ?_⟩
  · have hentries := (hleft.again hwraps hps htype hrun).keeps_entries
    have hnoted := ((c.over outer).cache_readFully t).2
    rcases readFully_cases hwraps hps' htype' (unread_of_readFully hrun) with
      ⟨cause, u', hstops, hrun', -⟩ | ⟨u', hrun', -⟩ <;>
      rw [hrun] at hrun' <;> cases hrun'
    rw [hrun] at hnoted
    exact ⟨⟨cause, hstops, rfl⟩, by simpa using hnoted, hentries⟩
  · obtain ⟨r, hread, hr⟩ := readFully_node
      (by rw [hshows.properties]; exact hps) (hcache ▸ htype) hcan
    refine ⟨r, hread, ?_⟩
    calc r.cache
      _ = c.filled v := hr
      _ = c.filled s := Site.filled_congr hcache hshows
      _ = c.filled t := hleft.filled_eq.symm
      _ = u.cache := (cache_of_readFully_over hwraps hps' htype' hrun).symm

/-- A node that does not show its type, with a title and a size. -/
def hiddenType : MapState Repository :=
  ⟨.empty, none, ⟨.empty, ((Repository.empty.modifyNode 0 fun n =>
    { n with hidesPrimaryType := true }).withProperty 0
      (.single "title" .string (.string "A"))).withProperty 0
      (.single "size" .long (.long 7))⟩⟩

theorem wellFormed_hiddenType : hiddenType.world.repo.WellFormed := by
  have hplain : (Repository.empty.modifyNode 0 fun n =>
      { n with hidesPrimaryType := true }).WellFormed :=
    Repository.wellFormed_empty.modifyNode fun _ hn => hn.congr rfl
  have hsingle : ∀ name type v,
      (StoredProperty.single name type v).WellFormed :=
    fun _ _ v _ => ⟨v, rfl⟩
  exact (hplain.withProperty 0 (by decide) (by decide)
    (hsingle "title" .string (.string "A"))).withProperty 0 (by decide)
      (by decide) (hsingle "size" .long (.long 7))

/-- The size has been looked up. -/
def sizeRead : MapState Repository :=
  (Site.sample.map.read "size" hiddenType).2

/-- The node with a call that fails. -/
def failing (method : Method) : World Repository :=
  (setFault 0 method (some (.other "down")) hiddenType.world).2

/-- The enumeration fails, then the question for the primary type. The
third attempt adds what a single one would have added. -/
theorem readFully_after_two_failures :
    ∃ t u, FailedReads Site.sample sizeRead t ∧
      t.cache.slots.keys = ["size", "title"] ∧
      (Site.sample.over (faultyNode 0 0)).readFully t = (.ok (), u) ∧
      ∃ r, Site.sample.map.readFully sizeRead = (.ok (), r) ∧
        r.cache = u.cache := by
  let m := Site.sample.over (faultyNode 0 0)
  let down := MapError.state "failed to read properties of " (.other "down")
  let s₁ : MapState Repository :=
    ⟨sizeRead.cache, none, failing .properties⟩
  let s₂ : MapState Repository :=
    ⟨sizeRead.cache, none, failing .primaryType⟩
  let t : MapState Repository :=
    ⟨⟨addAll .default sizeRead.cache.slots
      (hiddenType.world.repo.nodes 0).allProperties, false⟩, none,
      hiddenType.world⟩
  have hfirst : (m.readFully s₁).1 = .error down := rfl
  have hsecond : (m.readFully s₂).1 = .error down := rfl
  have htried : FailedReads Site.sample sizeRead t := by
    have h₁ : FailedReads Site.sample sizeRead s₁ :=
      .between .none rfl ⟨rfl, rfl⟩
    have h₂ : FailedReads Site.sample sizeRead s₂ :=
      .between (.again h₁ (wraps_faultyNode _)
        (show m.readFully s₁ = (_, _) from Prod.ext hfirst rfl))
        rfl ⟨rfl, rfl⟩
    exact .between (.again h₂ (wraps_faultyNode _)
      (show m.readFully s₂ = (_, _) from Prod.ext hsecond rfl))
      rfl ⟨rfl, rfl⟩
  have hwf : (Site.sample.node sizeRead).WellFormed := by
    have hnode : Site.sample.node sizeRead =
        (hiddenType.world.repo.nodes 0).content := rfl
    rw [hnode]
    exact NodeState.wellFormed_content.2 (wellFormed_hiddenType 0)
  have hstored : ShowsStored Site.sample.map.node := showsStored_node 0 0
  have htype : TypeWasRead sizeRead.cache.slots :=
    keepsType_read hstored "size" hiddenType typeWasRead_empty
  have hok : (m.readFully t).1 = .ok () := rfl
  have hrun : m.readFully t = (.ok (), (m.readFully t).2) := Prod.ext hok rfl
  obtain ⟨-, -, hsame⟩ :=
    htried.lose_nothing hwf htype (wraps_faultyNode Site.sample)
  exact ⟨t, _, htried, rfl, hrun,
    hsame _ hrun sizeRead rfl (.refl _) rfl⟩

end ContentProperties.Memory
