/-
A lookup gives the same answer before and after the full read. Reading
one key and reading all of them are different algorithms over one cache:
the one escapes the key, asks the node and falls back on the types, the
other enumerates, decodes every name and adds the types at the end. Both
give the answer of the node (Answers.lean).

# The invariant

A map that has not read everything is `Lazy` in its surroundings when
its cache is faithful to them. Every lookup keeps that and yields the
answer (`reads_read`), typed ones too, also when they are broken off; so
it holds after lookups of any keys in any order (`lazy_lookAll`), and
the full read may come at any point.
-/
import ContentProperties.Proofs.Map.Answers

namespace ContentProperties.Memory

open PropertyMap

-- ========================================================== lazy reads

variable {c : Site} {v : Surroundings} {s t : MapState Repository}

/-- The surroundings of a map that can be read: well-formed nodes, and
canonical names in the map's own node. -/
structure Site.Readable (c : Site) (v : Surroundings) : Prop where
  wellFormed : v.repo.WellFormed
  canonical : ∀ p ∈ (v.repo.nodes c.id).allProperties,
    Canonical c.options.legacyPathEncoding v.known p.name

theorem Site.Readable.node (hv : c.Readable v) :
    (v.repo.nodes c.id).Readable c.options v.known :=
  ⟨hv.wellFormed c.id, hv.canonical⟩

/-- A cache that is faithful to the surroundings of its map, and to which
not everything has been read. -/
structure Site.LazyIn (c : Site) (v : Surroundings)
    (cache : Cache Repository) : Prop where
  faithful : Faithful (v.repo.nodes c.id) c.options v.known cache.slots
  unread : cache.fullyRead = false

/-- A map in its surroundings that has not read everything, and whose
cache is faithful. -/
abbrev Site.Lazy (c : Site) (v : Surroundings) (s : MapState Repository) :
    Prop :=
  c.Stands v (c.LazyIn v) s

/-- What is under a key in the surroundings of a map. -/
def Site.answer? (c : Site) (v : Surroundings) (key : String) :
    Option StoredProperty :=
  (v.repo.nodes c.id).answer? c.options v.known key

/-- A reading call that yields the answer to a key, and leaves a lazy
map. -/
def Site.Answers (c : Site) (v : Surroundings) (s : MapState Repository)
    (key : String) (x : MapM Repository (Option (Slot Repository))) :
    Prop :=
  ∃ slot? t, x s = (.ok slot?, t) ∧ c.Lazy v t ∧
    (∀ slot, slot? = some slot → slot.entry.Calm Repository.content) ∧
    slot?.map (·.value) = (c.answer? v key).map StoredProperty.natural

namespace Site.Lazy

/-- The slot that is found under a key is the answer. -/
theorem answers_slot (hs : c.Lazy v s) {key : String}
    {slot : Slot Repository} (h : s.cache.slots.get? key = some slot) :
    c.Answers v s key (pure (some slot)) := by
  obtain ⟨p, hp, hvalue⟩ := hs.holds.faithful.answers key slot h
  refine ⟨some slot, s, rfl, hs, ?_, ?_⟩
  · intro found hfound
    cases hfound
    exact hs.holds.faithful.calm key slot h
  · rw [Site.answer?, hp]
    exact congrArg some hvalue

/-- A call that adds a slot with the answer to a key and yields what is
under the key then leaves a lazy map and yields the answer. -/
theorem answers_addNew (hs : c.Lazy v s) {key : String}
    {slot : Slot Repository} {p : StoredProperty}
    {x : MapM Repository (Option (Slot Repository))}
    (hp : c.answer? v key = some p) (hslot : slot.value = p.natural)
    (hcalm : slot.entry.Calm Repository.content)
    (hrun : x t = (.ok (some ((s.cache.slots.get? key).getD slot)),
      { s with cache :=
        ⟨s.cache.slots.addNew key slot, s.cache.fullyRead⟩ })) :
    c.Answers v t key x := by
  have hfaithful := hs.holds.faithful.addNew hp hslot hcalm
  have hself := Dict.get?_addNew_self s.cache.slots key slot
  obtain ⟨q, hq, hvalue⟩ := hfaithful.answers key _ hself
  refine ⟨_, _, hrun, ⟨hs.surroundings, hfaithful, hs.holds.unread⟩, ?_, ?_⟩
  · intro found hfound
    cases hfound
    exact hfaithful.calm key _ hself
  · rw [Site.answer?, hq]
    exact congrArg some hvalue

end Site.Lazy

/-- A call that runs like one that answers does so too. -/
theorem Site.Answers.of_run {key : String}
    {x y : MapM Repository (Option (Slot Repository))}
    (hy : c.Answers v t key y) (hrun : x s = y t) : c.Answers v s key x := by
  unfold Site.Answers at hy ⊢
  rwa [hrun]

/-- Caching the answer to a key yields it. -/
theorem answers_cacheValue (hs : c.Lazy v s) {key : String}
    {p : StoredProperty} (hp : c.answer? v key = some p) :
    c.Answers v s key (some <$> c.map.cacheValue key p.natural) :=
  hs.answers_addNew hp rfl (Entry.calm_pending _ _)
    (by rw [run_map, run_cacheValue])

/-- Reading one key yields the answer to it, if what comes where there is
no property does. -/
theorem answers_readOr (hv : c.Readable v) (hs : c.Lazy v s) {key : String}
    (hpath : isPath key = false)
    {otherwise : MapM Repository (Option (Slot Repository))}
    (hother : (v.repo.nodes c.id).property? (storageName v.known key) = none →
      ∀ t, c.Lazy v t → c.Answers v t key otherwise) :
    c.Answers v s key (c.map.readOr key otherwise) := by
  cases hslot : s.cache.slots.get? key with
  | some slot =>
      exact (hs.answers_slot hslot).of_run (readOr_of_cached hslot otherwise)
  | none =>
      obtain ⟨t, ht, hrun⟩ := run_readOr hs.node hv.node.wellFormed
        hs.holds.unread hslot hpath otherwise
      have hlazy : c.Lazy v t := hs.congr ht
      have hcache : t.cache = s.cache := congrArg Prod.fst ht
      rw [hs.known] at hrun
      cases hp : (v.repo.nodes c.id).property? (storageName v.known key) with
      | none =>
          rw [hp] at hrun
          exact (hother hp t hlazy).of_run hrun
      | some p =>
          rw [hp, ← hcache, ← hlazy.holds.unread] at hrun
          have hmem := hv.node.mem_of_property? hp
          obtain ⟨slot?, u, hu, hnext, hcalm, hvalue⟩ :=
            hlazy.answers_addNew (hv.node.answer?_key hmem) rfl p.calm_slot
              hrun
          -- the property is the answer to its own key and to this one
          refine ⟨slot?, u, hu, hnext, hcalm, ?_⟩
          rw [hvalue, Site.answer?, hv.node.answer?_key hmem, Site.answer?,
            NodeState.answer?_of_property? hp]

/-- Reading the primary type yields it, shown by a property or not. -/
theorem answers_readPrimaryType (hv : c.Readable v) (hs : c.Lazy v s) :
    c.Answers v s primaryTypeName c.map.readPrimaryType := by
  refine answers_readOr hv hs (by decide) fun hnone t ht => ?_
  obtain ⟨w, hcached, hw⟩ := run_cachePrimaryType ht.node
  have hlazy : c.Lazy v { t with world := w } := ht.world hw
  refine hlazy.answers_addNew (p := (v.repo.nodes c.id).typeShown)
    ?_ rfl (Entry.calm_pending _ _) (by rw [run_map, hcached])
  rw [Site.answer?, NodeState.answer?_primaryTypeName,
    NodeState.primaryShown, hnone]
  rfl

/-- Reading the resource type yields it, or else the primary type. -/
theorem answers_readResourceType (hv : c.Readable v) (hs : c.Lazy v s)
    (hsyn : c.options.synthesizeResourceType = true) :
    c.Answers v s resourceTypeName c.map.readResourceType := by
  refine answers_readOr hv hs (by decide) fun hnone t ht => ?_
  obtain ⟨primary?, u, hprimary, hu, -, hvalue⟩ :=
    answers_readPrimaryType hv ht
  have hanswer : c.answer? v resourceTypeName =
      c.answer? v primaryTypeName := by
    rw [Site.answer?, NodeState.answer?_resourceTypeName hnone hsyn,
      Site.answer?, NodeState.answer?_primaryTypeName]
  rw [Site.answer?, NodeState.answer?_primaryTypeName] at hvalue
  cases primary? with
  | none => cases hvalue
  | some primary =>
      have hshown : primary.value =
          ((v.repo.nodes c.id).primaryShown v.known).natural :=
        Option.some.inj hvalue
      have hshownAnswer : c.answer? v resourceTypeName =
          some ((v.repo.nodes c.id).primaryShown v.known) := by
        rw [hanswer, Site.answer?, NodeState.answer?_primaryTypeName]
      refine (answers_cacheValue hu hshownAnswer).of_run ?_
      rw [run_bind_of_ok hprimary, ← hshown]

-- ======================================================= any reading

/-- Reading any key succeeds and leaves the map lazy; a key that is not
empty and no path gets its answer. -/
theorem reads_read (hv : c.Readable v) (hs : c.Lazy v s) (key : String) :
    ∃ slot? t, c.map.read key s = (.ok slot?, t) ∧ c.Lazy v t ∧
      (∀ slot, slot? = some slot → slot.entry.Calm Repository.content) ∧
      (isPath key = false → slot?.map (·.value) =
        if key = "" then none
        else (c.answer? v key).map StoredProperty.natural) := by
  have hanswers : ∀ {x : MapM Repository (Option (Slot Repository))},
      c.Answers v s key x →
      ∃ slot? t, x s = (.ok slot?, t) ∧ c.Lazy v t ∧
        (∀ slot, slot? = some slot → slot.entry.Calm Repository.content) ∧
        (isPath key = false → slot?.map (·.value) =
          (c.answer? v key).map StoredProperty.natural) := by
    rintro x ⟨slot?, t, hrun, ht, hcalm, hvalue⟩
    exact ⟨slot?, t, hrun, ht, hcalm, fun _ => hvalue⟩
  unfold PropertyMap.read
  split
  · refine ⟨none, s, rfl, hs, ?_, fun _ => rfl⟩
    intro slot h
    cases h
  split
  · next hpath =>
    obtain ⟨w, hw, hrun⟩ := run_readPath (c := c)
      (by rw [hs.content]; exact hv.wellFormed) key
    refine ⟨_, _, hrun, hs.world hw, ?_, fun h => ?_⟩
    · intro slot hslot
      obtain ⟨p, -, rfl⟩ := Option.map_eq_some_iff.1 hslot
      exact p.calm_slot
    · rw [hpath] at h
      cases h
  next hpath =>
  have hpath : isPath key = false := by simpa using hpath
  split
  · next heq =>
    subst heq
    exact hanswers (answers_readPrimaryType hv hs)
  next hprimary =>
  split
  · next heq =>
    obtain ⟨rfl, hsyn⟩ := heq
    exact hanswers (answers_readResourceType hv hs hsyn)
  next hresource =>
  -- no type falls in for any other key
  refine hanswers (answers_readOr hv hs hpath fun hnone t ht => ?_)
  have hresource' : ¬(key = resourceTypeName ∧
      c.options.synthesizeResourceType = true) := hresource
  have hanswer : c.answer? v key = none := by
    simp only [Site.answer?, NodeState.answer?, hnone, if_neg hprimary,
      if_neg hresource']
  refine ⟨none, t, rfl, ht, ?_, ?_⟩
  · intro slot h
    cases h
  · rw [hanswer]
    rfl

/-- The value of a key that is no path is its answer. -/
theorem run_get?_lazy (hv : c.Readable v) (hs : c.Lazy v s) (key : String) :
    ∃ found t, c.map.get? key s = (.ok found, t) ∧ c.Lazy v t ∧
      (isPath key = false → found = if key = "" then none
        else (c.answer? v key).map StoredProperty.natural) := by
  obtain ⟨slot?, t, hrun, ht, -, hvalue⟩ :=
    reads_read hv hs (plainKey key)
  refine ⟨slot?.map (·.value), t, ?_, ht, fun hpath => ?_⟩
  · unfold get?
    rw [run_bind_of_ok hrun]
    rfl
  · rw [plainKey_of_not_isPath hpath] at hvalue
    exact hvalue hpath

-- ================================================================ runs

/-- A lookup of one key, typed or not. -/
inductive Lookup where
  | get (key : String)
  | getAs (key : String) (target : ValueType)

/-- The state after a lookup, whatever it yields. -/
def Site.look (c : Site) (s : MapState Repository) :
    Lookup → MapState Repository
  | .get key => (c.map.get? key s).2
  | .getAs key target => (c.map.getAs? key target s).2

/-- The state after lookups, one after the other. -/
def Site.lookAll (c : Site) (s : MapState Repository)
    (lookups : List Lookup) : MapState Repository :=
  lookups.foldl c.look s

/-- The key that is looked up. -/
def Lookup.key : Lookup → String
  | .get key => key
  | .getAs key _ => key

/-- What holds of a map whose key was read holds after the lookup, typed
or not and broken off or not, if the counters of the world do not bear on
it: the conversion of a calm entry changes nothing else. -/
theorem look_of_read {I : MapState Repository → Prop}
    (hworld : ∀ t w, I t → contentOf w = contentOf t.world →
      I { t with world := w })
    {q : Lookup} {slot? : Option (Slot Repository)}
    (hrun : c.map.read (plainKey q.key) s = (.ok slot?, t)) (ht : I t)
    (hcalm : ∀ slot, slot? = some slot →
      slot.entry.Calm Repository.content) : I (c.look s q) := by
  have hget : ∀ key, c.map.read (plainKey key) s = (.ok slot?, t) →
      c.map.get? key s = (.ok (slot?.map (·.value)), t) := by
    intro key hrun
    unfold get?
    rw [run_bind_of_ok hrun]
    rfl
  cases q with
  | get key =>
      rw [Site.look, hget key hrun]
      exact ht
  | getAs key target =>
      unfold Site.look
      dsimp only
      unfold getAs?
      split
      · rw [run_bind_of_ok (hget key hrun)]
        exact ht
      rw [run_bind_of_ok (show c.map.read (plainKey key) s = _ from hrun)]
      cases slot? with
      | none => exact ht
      | some slot =>
          have hkeeps : contentOf (slot.entry.convert (session c.sid)
              c.provider target t.world).2 = contentOf t.world :=
            Entry.keeps_convert (calm_session c.sid) (hcalm slot rfl) target
              t.world
          show I (MapM.ofConversion
            (slot.entry.convert (session c.sid) c.provider target) t).2
          rw [MapM.run_ofConversion]
          rcases hconv : slot.entry.convert (session c.sid) c.provider target
            t.world with ⟨_ | _, w⟩ <;> rw [hconv] at hkeeps <;>
            exact hworld t w ht hkeeps

/-- What every single lookup keeps is kept by all of them. -/
theorem lookAll_induction {I : MapState Repository → Prop}
    {lookups : List Lookup}
    (hlook : ∀ q ∈ lookups, ∀ t, I t → I (c.look t q)) (hs : I s) :
    I (c.lookAll s lookups) := by
  induction lookups generalizing s with
  | nil => exact hs
  | cons q rest ih =>
    apply ih
    · intro r hr
      exact hlook r (List.mem_cons_of_mem q hr)
    · exact hlook q List.mem_cons_self s hs

theorem lazy_look (hv : c.Readable v) (hs : c.Lazy v s) (q : Lookup) :
    c.Lazy v (c.look s q) := by
  obtain ⟨slot?, t, hrun, ht, hcalm, -⟩ :=
    reads_read hv hs (plainKey q.key)
  exact look_of_read (fun _ _ hu hw => hu.world hw) hrun ht hcalm

theorem lazy_lookAll (hv : c.Readable v) (hs : c.Lazy v s)
    (lookups : List Lookup) : c.Lazy v (c.lookAll s lookups) :=
  lookAll_induction (fun q _ _ ht => lazy_look hv ht q) hs

/-- A full read of a lazy map ends with filled slots, if the node can be
enumerated, and fails if it cannot. -/
theorem readFully_lazy (hv : c.Readable v) (hs : c.Lazy v s) :
    ((v.repo.nodes c.id).failsEnumeration = false ∧
      ∃ w, c.map.readFully s = (.ok (), ⟨⟨fill c.options
        (v.repo.nodes c.id) s.cache.slots, true⟩, s.prefixes, w⟩)) ∨
    ((v.repo.nodes c.id).failsEnumeration = true ∧
      ∃ e t, c.map.readFully s = (.error e, t)) := by
  cases hfails : (v.repo.nodes c.id).failsEnumeration with
  | false =>
      obtain ⟨w, hrun, -⟩ := run_readFully hs.node hv.node.wellFormed hfails
        hs.holds.unread hs.holds.faithful.wereRead
      exact .inl ⟨rfl, w, hrun⟩
  | true =>
      obtain ⟨w, hrun, -⟩ :=
        run_readFully_of_fails hs.node hfails hs.holds.unread
      exact .inr ⟨rfl, _, _, hrun⟩

/-- After the full read of a lazy map a key has the answer it had
before. -/
theorem get?_readFully (hv : c.Readable v) (hs : c.Lazy v s) {key : String}
    (hpath : isPath key = false)
    (hk : RoundTrips c.options.legacyPathEncoding v.known key)
    (h : c.map.readFully s = (.ok (), t)) :
    (c.map.get? key t).1 = .ok (if key = "" then none
      else (c.answer? v key).map StoredProperty.natural) := by
  by_cases hne : key = ""
  · subst hne
    rfl
  rcases readFully_lazy hv hs with ⟨-, w, hrun⟩ | ⟨-, e, u, hrun⟩
  · rw [hrun] at h
    cases h
    have hplain : IsPlain key := isPlain_of_not_isPath hne hpath
    rw [get?_of_fullyRead rfl hplain, plainKey_of_not_isPath hpath,
      if_neg hne, Site.answer?, ← get?_fill hv.node hs.holds.faithful hk]
  · rw [hrun] at h
    cases h

/-- Looking a key up gives one answer on a map that has made any lookups
before, on that map after the full read, and on a fresh map after the
full read; and the full reads succeed if the node can be enumerated. The
stored names must be canonical, and the key that of its storage name. -/
theorem get?_before_and_after_readFully (c : Site)
    (s : MapState Repository) (hwf : s.world.repo.WellFormed)
    (hcanonical : ∀ p ∈ (s.world.repo.nodes c.id).allProperties,
      Canonical c.options.legacyPathEncoding (c.known s) p.name)
    (hs : s.cache = Cache.empty) (earlier : List Lookup) (key : String)
    (hpath : isPath key = false)
    (hk : RoundTrips c.options.legacyPathEncoding (c.known s) key) :
    ∃ found, (c.map.get? key (c.lookAll s earlier)).1 = .ok found ∧
      (∀ t, c.map.readFully (c.lookAll s earlier) = (.ok (), t) →
        (c.map.get? key t).1 = .ok found) ∧
      (∀ t, c.map.readFully { c.lookAll s earlier with cache := .empty } =
          (.ok (), t) →
        (c.map.get? key t).1 = .ok found) ∧
      ((s.world.repo.nodes c.id).failsEnumeration = false →
        (c.map.readFully (c.lookAll s earlier)).1 = .ok () ∧
        (c.map.readFully
          { c.lookAll s earlier with cache := .empty }).1 = .ok ()) := by
  have hv : c.Readable (c.surroundings s) :=
    ⟨Repository.wellFormed_content.2 hwf, hcanonical⟩
  have hempty : ∀ t : MapState Repository,
      c.surroundings t = c.surroundings s → t.cache = Cache.empty →
      c.Lazy (c.surroundings s) t := by
    intro t ht hcache
    refine ⟨ht, ?_, ?_⟩
    · rw [hcache]
      exact faithful_empty
    · rw [hcache]
      rfl
  have ht := lazy_lookAll hv (hempty s rfl hs) earlier
  have hfresh := hempty { c.lookAll s earlier with cache := .empty }
    ht.surroundings rfl
  obtain ⟨found, u, hrun, -, hfound⟩ := run_get?_lazy hv ht key
  refine ⟨found, by rw [hrun], ?_, ?_, ?_⟩
  · intro t hfull
    rw [get?_readFully hv ht hpath hk hfull, hfound hpath]
  · intro t hfull
    rw [get?_readFully hv hfresh hpath hk hfull, hfound hpath]
  · intro hcan
    have hok : ∀ t, c.Lazy (c.surroundings s) t →
        (c.map.readFully t).1 = .ok () := by
      intro t ht
      rcases readFully_lazy hv ht with ⟨-, w, hrun⟩ | ⟨hfails, -⟩
      · rw [hrun]
      · exact absurd (hcan.symm.trans hfails) (by decide)
    exact ⟨hok _ ht, hok _ hfresh⟩

/-- In the sample a key that was looked for as a string, after another one,
is found alike before and after the full read. -/
theorem get?_of_sample_before_and_after :
    Site.sampleState.world.repo.WellFormed ∧
    (∀ p ∈ (Site.sampleState.world.repo.nodes 0).allProperties,
      Canonical true (Site.sample.known Site.sampleState) p.name) ∧
    ∃ found, (Site.sample.map.get? "a" (Site.sample.lookAll Site.sampleState
        [.get "b", .getAs "a" .string])).1 = .ok found ∧
      (∀ t, Site.sample.map.readFully (Site.sample.lookAll Site.sampleState
          [.get "b", .getAs "a" .string]) = (.ok (), t) →
        (Site.sample.map.get? "a" t).1 = .ok found) := by
  have hwf : Site.sampleState.world.repo.WellFormed :=
    Repository.wellFormed_sample
  have hkey := propertyKey_sample (show "a" ∈ ["a", "b", "c"] by decide)
  obtain ⟨found, hrun, hfull, -⟩ :=
    get?_before_and_after_readFully Site.sample Site.sampleState hwf
      canonical_sample rfl [.get "b", .getAs "a" .string] "a" hkey.noPath
      hkey.roundTrips
  exact ⟨hwf, canonical_sample, found, hrun, hfull⟩

end ContentProperties.Memory
