/-
Which value a lookup yields where stored names share a key. A property is
cached under the key that its name decodes to, and the first entry under
a key stays, so a lookup may yield the value of a property that another
lookup has found. With canonical names it cannot (Lookup.lean); here the
names are any.

# The invariant

A reading seeks the property of its key, and that of the primary type if
it falls back on it (`Site.Seeks`). Every slot of a map that has only
looked keys up was brought in by such a reading (`Site.Brought`): it has
the value of the property that was found, under that property's key, or
it stands in for a type under the key of the type. Which keys were sought
is fixed for the whole run, so that a lookup keeps the invariant as it is
(`Site.Traced`), and nothing has to be said of the order.

# What it closes

A key whose property is stored yields what is cached under the key, else
under the key of the property, else the value of the property itself. So
it yields that value, unless an earlier lookup has brought in something
else under one of the two keys.
-/
import ContentProperties.Proofs.Map.Lookup

namespace ContentProperties.Memory

open PropertyMap

variable {c : Site} {v : Surroundings} {s t : MapState Repository}
variable {sought : String → Prop} {key : String}

-- ====================================================== what is sought

/-- The property that the surroundings have under the storage name of a
key. -/
def Site.stored? (c : Site) (v : Surroundings) (key : String) :
    Option StoredProperty :=
  (v.repo.nodes c.id).property? (storageName v.known key)

/-- Reading `key`, if that is not cached, seeks the property of `k`. -/
def Site.Seeks (c : Site) (v : Surroundings) (key k : String) : Prop :=
  key ≠ "" ∧ isPath key = false ∧
    (k = key ∨
      k = primaryTypeName ∧ key = resourceTypeName ∧
        c.options.synthesizeResourceType = true ∧
        c.stored? v resourceTypeName = none)

/-- The slot under a key has the value of a property that was sought and
has this key, or stands in for a type that was sought and is not
stored. -/
def Site.Brought (c : Site) (v : Surroundings) (sought : String → Prop)
    (key : String) (slot : Slot Repository) : Prop :=
  (∃ k p, sought k ∧ c.stored? v k = some p ∧ p.key c.options = key ∧
    slot.value = p.natural) ∨
  (sought key ∧ (key = primaryTypeName ∨ key = resourceTypeName) ∧
    c.stored? v key = none)

/-- The slot holds a value as it is read, and asking its entry changes no
repository. -/
def WasRead (slot : Slot Repository) : Prop :=
  slot.entry.Calm Repository.content ∧
    ∃ p : StoredProperty, slot.value = p.natural

theorem wasRead_slot (p : StoredProperty) : WasRead p.slot :=
  ⟨p.calm_slot, p, rfl⟩

theorem wasRead_pendingSlot (p : StoredProperty) :
    WasRead (pendingSlot p.natural) :=
  ⟨Entry.calm_pending _ _, p, rfl⟩

-- ======================================================= the invariant

/-- A cache to which not everything has been read, and whose slots were
brought in by readings that sought some keys. -/
structure Site.TracedIn (c : Site) (v : Surroundings)
    (sought : String → Prop) (cache : Cache Repository) : Prop where
  unread : cache.fullyRead = false
  wasRead : ∀ key slot, cache.slots.get? key = some slot → WasRead slot
  brought : ∀ key slot, cache.slots.get? key = some slot →
    c.Brought v sought key slot

/-- A map in its surroundings that has not read everything, and whose
slots were brought in by readings that sought some keys. -/
abbrev Site.Traced (c : Site) (v : Surroundings) (sought : String → Prop)
    (s : MapState Repository) : Prop :=
  c.Stands v (c.TracedIn v sought) s

/-- A reading call that succeeds, and leaves the slots traced. -/
def Site.Traces (c : Site) (v : Surroundings) (sought : String → Prop)
    (s : MapState Repository)
    (x : MapM Repository (Option (Slot Repository))) : Prop :=
  ∃ slot? t, x s = (.ok slot?, t) ∧ c.Traced v sought t ∧
    ∀ slot, slot? = some slot → WasRead slot

namespace Site.Traced

/-- A slot that was brought in may be added, and is yielded unless there
is one already. -/
theorem addNew (hs : c.Traced v sought s) {slot : Slot Repository}
    (hread : WasRead slot) (hslot : c.Brought v sought key slot) :
    c.Traced v sought { s with cache :=
        ⟨s.cache.slots.addNew key slot, s.cache.fullyRead⟩ } ∧
      WasRead ((s.cache.slots.get? key).getD slot) := by
  constructor
  · refine ⟨hs.surroundings, hs.holds.unread, ?_, ?_⟩
    · intro other found hfound
      rcases Dict.of_get?_addNew hfound with ⟨-, rfl⟩ | hold
      · exact hread
      · exact hs.holds.wasRead other found hold
    · intro other found hfound
      rcases Dict.of_get?_addNew hfound with ⟨rfl, rfl⟩ | hold
      · exact hslot
      · exact hs.holds.brought other found hold
  · cases hget : s.cache.slots.get? key with
    | none => exact hread
    | some found => exact hs.holds.wasRead key found hget

end Site.Traced

-- ============================================================= readings

/-- Reading a key that is sought leaves the slots traced, if what comes
where there is no property does. -/
theorem traces_readOr (hwf : v.repo.WellFormed) (hs : c.Traced v sought s)
    (hpath : isPath key = false) (hsought : sought key)
    {otherwise : MapM Repository (Option (Slot Repository))}
    (hother : c.stored? v key = none →
      ∀ t, c.Traced v sought t → c.Traces v sought t otherwise) :
    c.Traces v sought s (c.map.readOr key otherwise) := by
  cases hslot : s.cache.slots.get? key with
  | some slot =>
      refine ⟨some slot, s, readOr_of_cached hslot otherwise, hs, ?_⟩
      intro found hfound
      cases hfound
      exact hs.holds.wasRead key slot hslot
  | none =>
      obtain ⟨t, ht, hrun⟩ := run_readOr hs.node (hwf c.id) hs.holds.unread
        hslot hpath otherwise
      have htraced : c.Traced v sought t := hs.congr ht
      have hcache : t.cache = s.cache := congrArg Prod.fst ht
      rw [hs.known] at hrun
      unfold Site.Traces
      cases hp : c.stored? v key with
      | none =>
          rw [show (v.repo.nodes c.id).property? _ = none from hp] at hrun
          rw [hrun]
          exact hother hp t htraced
      | some p =>
          rw [show (v.repo.nodes c.id).property? _ = some p from hp,
            ← hcache, ← htraced.holds.unread] at hrun
          obtain ⟨hnext, hyield⟩ := htraced.addNew (wasRead_slot p)
            (.inl ⟨key, p, hsought, hp, rfl, rfl⟩)
          refine ⟨_, _, hrun, hnext, ?_⟩
          intro slot hfound
          cases hfound
          exact hyield

/-- Reading the primary type leaves the slots traced. -/
theorem traces_readPrimaryType (hwf : v.repo.WellFormed)
    (hs : c.Traced v sought s) (hsought : sought primaryTypeName) :
    c.Traces v sought s c.map.readPrimaryType := by
  apply traces_readOr hwf hs (by decide) hsought
  intro hnone t ht
  obtain ⟨w, hcached, hw⟩ := run_cachePrimaryType ht.node
  have htraced : c.Traced v sought { t with world := w } := ht.world hw
  obtain ⟨hnext, hyield⟩ := htraced.addNew
    (wasRead_pendingSlot (v.repo.nodes c.id).typeShown)
    (.inr ⟨hsought, .inl rfl, hnone⟩)
  refine ⟨_, _, by rw [run_map, hcached], hnext, ?_⟩
  intro slot hfound
  cases hfound
  exact hyield

/-- Reading the resource type leaves the slots traced; where it is not
stored the primary type is sought. -/
theorem traces_readResourceType (hwf : v.repo.WellFormed)
    (hs : c.Traced v sought s) (hsought : sought resourceTypeName)
    (hprimary : c.stored? v resourceTypeName = none →
      sought primaryTypeName) :
    c.Traces v sought s c.map.readResourceType := by
  apply traces_readOr hwf hs (by decide) hsought
  intro hnone t ht
  obtain ⟨primary?, u, hrun, hu, hread⟩ :=
    traces_readPrimaryType hwf ht (hprimary hnone)
  unfold Site.Traces
  rw [run_bind_of_ok hrun]
  cases primary? with
  | none =>
      refine ⟨none, u, rfl, hu, ?_⟩
      intro slot hfound
      cases hfound
  | some primary =>
      obtain ⟨-, p, hp⟩ := hread primary rfl
      obtain ⟨hnext, hyield⟩ := hu.addNew (wasRead_pendingSlot p)
        (.inr ⟨hsought, .inr rfl, hnone⟩)
      have hcached : (some <$> c.map.cacheValue resourceTypeName
          primary.value : MapM Repository (Option (Slot Repository))) u =
          (.ok (some ((u.cache.slots.get? resourceTypeName).getD
            (pendingSlot p.natural))), { u with cache :=
              ⟨u.cache.slots.addNew resourceTypeName (pendingSlot p.natural),
                u.cache.fullyRead⟩ }) := by
        rw [hp, run_map, run_cacheValue]
      refine ⟨_, _, hcached, hnext, ?_⟩
      intro slot hfound
      cases hfound
      exact hyield

/-- Reading any key leaves the slots traced, if what it seeks is
sought. -/
theorem traces_read (hwf : v.repo.WellFormed) (hs : c.Traced v sought s)
    (key : String) (hsought : ∀ k, c.Seeks v key k → sought k) :
    c.Traces v sought s (c.map.read key) := by
  have hnothing : ∀ t, c.Traced v sought t →
      c.Traces v sought t (pure none) := by
    intro t ht
    refine ⟨none, t, rfl, ht, ?_⟩
    intro slot hfound
    cases hfound
  unfold PropertyMap.read
  by_cases hne : key = ""
  · rw [if_pos hne]
    exact hnothing s hs
  rw [if_neg hne]
  cases hpath : isPath key with
  | true =>
      -- what a path leads to is not cached
      obtain ⟨w, hw, hrun⟩ := run_readPath (c := c)
        (by rw [hs.content]; exact hwf) key
      refine ⟨_, _, hrun, hs.world hw, ?_⟩
      intro slot hfound
      obtain ⟨p, -, rfl⟩ := Option.map_eq_some_iff.1 hfound
      exact wasRead_slot p
  | false =>
      have hkey : sought key := hsought key ⟨hne, hpath, .inl rfl⟩
      simp only [Bool.false_eq_true, if_false]
      by_cases hprimary : key = primaryTypeName
      · rw [if_pos hprimary]
        subst hprimary
        exact traces_readPrimaryType hwf hs hkey
      rw [if_neg hprimary]
      split
      · next hresource =>
        obtain ⟨rfl, hsyn⟩ := hresource
        apply traces_readResourceType hwf hs hkey
        intro hnone
        exact hsought _ ⟨hne, hpath, .inr ⟨rfl, rfl, hsyn, hnone⟩⟩
      · exact traces_readOr hwf hs hpath hkey fun _ => hnothing

-- ================================================================= runs

/-- Lookups leave the slots of a map that has read nothing traced to what
they sought. -/
theorem traced_lookAll (hwf : v.repo.WellFormed)
    (hs : c.surroundings s = v) (hempty : s.cache = Cache.empty)
    (lookups : List Lookup) :
    c.Traced v (fun k => ∃ q ∈ lookups, c.Seeks v (plainKey q.key) k)
      (c.lookAll s lookups) := by
  apply lookAll_induction
  · intro q hq t ht
    obtain ⟨slot?, u, hrun, hu, hread⟩ := traces_read hwf ht
      (plainKey q.key) fun k hk => ⟨q, hq, hk⟩
    refine look_of_read ?_ hrun hu fun slot hslot => (hread slot hslot).1
    intro t w ht hw
    exact ht.world hw
  · have hnone : ∀ key slot, s.cache.slots.get? key ≠ some slot := by
      intro key slot hslot
      rw [hempty] at hslot
      cases hslot
    refine ⟨hs, by rw [hempty]; rfl, ?_, ?_⟩
    · intro key slot hslot
      exact absurd hslot (hnone key slot)
    · intro key slot hslot
      exact absurd hslot (hnone key slot)

/-- What a lookup yields on a map that has not read everything, for a key
whose property is stored. -/
theorem get?_of_stored? (hwf : v.repo.WellFormed)
    (hs : c.Traced v sought s) (hne : key ≠ "") (hpath : isPath key = false)
    {p : StoredProperty} (hp : c.stored? v key = some p) :
    (c.map.get? key s).1 = .ok (some (((s.cache.slots.get? key).or
      (s.cache.slots.get? (p.key c.options))).getD p.slot).value) := by
  -- every way of reading the key goes to its property first
  obtain ⟨otherwise, hread⟩ := exists_readOr (m := c.map) hne hpath
  have hslot : (c.map.readOr key otherwise s).1 =
      .ok (some (((s.cache.slots.get? key).or
        (s.cache.slots.get? (p.key c.options))).getD p.slot)) := by
    cases hslot : s.cache.slots.get? key with
    | some slot =>
        rw [readOr_of_cached hslot otherwise]
        rfl
    | none =>
        obtain ⟨t, -, hrun⟩ := run_readOr hs.node (hwf c.id) hs.holds.unread
          hslot hpath otherwise
        rw [hs.known, show (v.repo.nodes c.id).property? _ = some p from hp]
          at hrun
        rw [hrun]
        rfl
  unfold get?
  rw [plainKey_of_not_isPath hpath, hread,
    run_bind_of_ok (Prod.ext hslot rfl :
      c.map.readOr key otherwise s = (_, _))]
  rfl

/-- Seeking the property of `k` brings in something else than the property
`p` of `key` under `key` or under the key of `p`: another property that
has one of these keys, or a stand-in for a type. -/
def Site.Displaces (c : Site) (v : Surroundings) (p : StoredProperty)
    (key k : String) : Prop :=
  (∃ other, c.stored? v k = some other ∧ other ≠ p ∧
    (other.key c.options = key ∨ other.key c.options = p.key c.options)) ∨
  (c.stored? v k = none ∧ (k = primaryTypeName ∨ k = resourceTypeName) ∧
    k = p.key c.options)

/-- If nothing that was sought displaces the property of a key, every slot
under the key and under that of the property has the value of the
property. -/
theorem Site.Traced.value_eq (hs : c.Traced v sought s)
    {p : StoredProperty} (hp : c.stored? v key = some p)
    (hkept : ∀ k, sought k → ¬c.Displaces v p key k) {place : String}
    (hat : place = key ∨ place = p.key c.options) {slot : Slot Repository}
    (hslot : s.cache.slots.get? place = some slot) :
    slot.value = p.natural := by
  rcases hs.holds.brought place slot hslot with
    ⟨k, other, hk, hother, hkey, hvalue⟩ | ⟨hsought, htype, hnone⟩
  · by_cases heq : other = p
    · rw [hvalue, heq]
    · refine absurd (.inl ⟨other, hother, heq, ?_⟩) (hkept k hk)
      rwa [hkey]
  · rcases hat with rfl | rfl
    · rw [hp] at hnone
      cases hnone
    · exact absurd (.inr ⟨hnone, htype, rfl⟩) (hkept _ hsought)

/-- What a lookup of a key yields after any others, on a map that had read
nothing before, if the node has a property under the storage name of the
key: the value that is cached under the key, else the one under the key
that the name of the property decodes to, else that of the property. It
is that of the property, unless an earlier lookup sought something that
displaces it. -/
theorem get?_after_lookups (c : Site) (s : MapState Repository)
    (hwf : s.world.repo.WellFormed) (hs : s.cache = Cache.empty)
    (earlier : List Lookup) {key : String} (hne : key ≠ "")
    (hpath : isPath key = false) {p : StoredProperty}
    (hp : (s.world.repo.nodes c.id).property?
      (storageName (c.known s) key) = some p) :
    (c.map.get? key (c.lookAll s earlier)).1 = .ok (some
      ((((c.lookAll s earlier).cache.slots.get? key).or
        ((c.lookAll s earlier).cache.slots.get? (p.key c.options))).getD
          p.slot).value) ∧
    ((∀ q ∈ earlier, ∀ k, c.Seeks (c.surroundings s) (plainKey q.key) k →
        ¬c.Displaces (c.surroundings s) p key k) →
      (c.map.get? key (c.lookAll s earlier)).1 = .ok (some p.natural)) := by
  have hwf' : (c.surroundings s).repo.WellFormed :=
    Repository.wellFormed_content.2 hwf
  have hstored : c.stored? (c.surroundings s) key = some p := hp
  have htraced := traced_lookAll hwf' (c := c) rfl hs earlier
  have hyield := get?_of_stored? hwf' htraced hne hpath hstored
  refine ⟨hyield, fun hkept => ?_⟩
  have hvalue : ∀ place slot, place = key ∨ place = p.key c.options →
      (c.lookAll s earlier).cache.slots.get? place = some slot →
      slot.value = p.natural := by
    intro place slot hplace hslot
    refine htraced.value_eq hstored ?_ hplace hslot
    rintro k ⟨q, hq, hk⟩
    exact hkept q hq k hk
  rw [hyield]
  cases hkey : (c.lookAll s earlier).cache.slots.get? key with
  | some slot =>
      rw [Option.some_or, Option.getD_some, hvalue key slot (.inl rfl) hkey]
  | none =>
      rw [Option.none_or]
      cases hdecoded : (c.lookAll s earlier).cache.slots.get?
          (p.key c.options) with
      | some slot =>
          rw [Option.getD_some, hvalue _ slot (.inr rfl) hdecoded]
      | none => rfl

/-- Two titles, one of them stored under an encoded name by an older
writer. -/
def twoTitles : MapState Repository :=
  ⟨.empty, none, ⟨.empty, (Repository.empty.withProperty 0
    (.single "my_x0020_title" .string (.string "old"))).withProperty 0
    (.single "my title" .string (.string "new"))⟩⟩

theorem wellFormed_twoTitles : twoTitles.world.repo.WellFormed :=
  (Repository.wellFormed_empty.withProperty 0 (by decide) (by decide)
    fun _ => ⟨_, rfl⟩).withProperty 0 (by decide) (by decide)
    fun _ => ⟨_, rfl⟩

/-- The newer title is found after lookups of the type and of itself. -/
theorem newer_title_after_lookups :
    twoTitles.world.repo.WellFormed ∧ twoTitles.cache = Cache.empty ∧
    (twoTitles.world.repo.nodes 0).property?
        (storageName (Site.sample.known twoTitles) "my title") =
      some (.single "my title" .string (.string "new")) ∧
    (Site.sample.map.get? "my title" (Site.sample.lookAll twoTitles
        [.get resourceTypeName, .getAs "my title" .string])).1 =
      .ok (some (.string "new")) := by
  have hstored : (twoTitles.world.repo.nodes 0).property?
      (storageName (Site.sample.known twoTitles) "my title") =
        some (.single "my title" .string (.string "new")) := rfl
  have hprimary : Site.sample.stored? (Site.sample.surroundings twoTitles)
      primaryTypeName = some (twoTitles.world.repo.nodes 0).typeShown := rfl
  have hresource : Site.sample.stored? (Site.sample.surroundings twoTitles)
      resourceTypeName = none := rfl
  have hsought : ∀ q ∈ [Lookup.get resourceTypeName,
        .getAs "my title" .string], ∀ k,
      Site.sample.Seeks (Site.sample.surroundings twoTitles)
        (plainKey q.key) k →
      k = "my title" ∨ k = primaryTypeName ∨ k = resourceTypeName := by
    simp only [List.mem_cons, List.not_mem_nil, or_false]
    rintro q (rfl | rfl) k ⟨-, -, hk | ⟨hk, -⟩⟩
    · exact .inr (.inr hk)
    · exact .inr (.inl hk)
    · exact .inl hk
    · exact .inr (.inl hk)
  refine ⟨wellFormed_twoTitles, rfl, hstored,
    (get?_after_lookups Site.sample twoTitles wellFormed_twoTitles rfl _
      (by decide) (by decide) hstored).2 ?_⟩
  rintro q hq k hk (⟨other, hother, hne, hkey⟩ | ⟨-, htype, heq⟩)
  · rcases hsought q hq k hk with rfl | rfl | rfl
    · exact hne (Option.some.inj (hother.symm.trans hstored))
    · obtain rfl := Option.some.inj (hother.symm.trans hprimary)
      exact absurd hkey (by decide +kernel)
    · rw [hresource] at hother
      cases hother
  · rw [heq] at htype
    exact absurd htype (by decide +kernel)

/-- The older title is cached under the key of the newer one, and a lookup
of that key yields it. -/
theorem older_title_hides_newer :
    twoTitles.world.repo.WellFormed ∧
    (twoTitles.world.repo.nodes 0).property?
        (storageName (Site.sample.known twoTitles) "my title") =
      some (.single "my title" .string (.string "new")) ∧
    (Site.sample.map.get? "my title" (Site.sample.lookAll twoTitles
        [.get "my_x0020_title"])).1 = .ok (some (.string "old")) :=
  ⟨wellFormed_twoTitles, rfl, rfl⟩

end ContentProperties.Memory
