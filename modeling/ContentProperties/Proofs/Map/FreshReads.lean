/-
What a map finds that has read nothing yet. One key is looked up under
its storage name, and the answer of the node is found (`get?_fresh`); a
listing shows the key of every stored name, and the types that were
added (`keys_fresh`).

Neither asks for canonical names. Two stored names may have one key:
then the listing shows the key once, for whichever of them comes first,
while the lookup finds the one whose name is that of the key. The cache
is empty, so that nothing read earlier comes in between.
-/
import ContentProperties.Proofs.Map.Answers

namespace ContentProperties.Memory

open PropertyMap

variable {c : Site} {v : Surroundings} {s t : MapState Repository}

/-- The cache of a map in surroundings of well-formed nodes that has read
nothing. -/
structure FreshIn (v : Surroundings) (cache : Cache Repository) :
    Prop where
  wellFormed : v.repo.WellFormed
  empty : cache = Cache.empty

theorem FreshIn.unread {cache : Cache Repository} (h : FreshIn v cache) :
    cache.fullyRead = false := by
  rw [h.empty]
  rfl

/-- A map in surroundings of well-formed nodes that has read nothing. -/
abbrev Site.Fresh (c : Site) (v : Surroundings) (s : MapState Repository) :
    Prop :=
  c.Stands v (FreshIn v) s

-- ============================================================= one key

/-- A key that is not cached is looked up under its storage name. -/
theorem run_readOr_fresh (hs : c.Fresh v s) {key : String}
    (hpath : isPath key = false)
    (otherwise : MapM Repository (Option (Slot Repository))) :
    ∃ t, c.Fresh v t ∧ c.map.readOr key otherwise s =
      match (v.repo.nodes c.id).property? (storageName v.known key) with
      | some p => (.ok (some p.slot), { t with cache :=
          ⟨Dict.empty.addNew (p.key c.options) p.slot, false⟩ })
      | none => otherwise t := by
  have hnone : s.cache.slots.get? key = none := by
    rw [hs.holds.empty]
    rfl
  obtain ⟨t, ht, hrun⟩ := run_readOr hs.node (hs.holds.wellFormed c.id)
    hs.holds.unread hnone hpath otherwise
  refine ⟨t, hs.congr ht, ?_⟩
  rw [hrun, hs.known]
  cases (v.repo.nodes c.id).property? (storageName v.known key) with
  | none => rfl
  | some p =>
      simp only [hs.holds.empty]
      rfl

/-- The primary type is found, and no other key is cached with it. -/
theorem run_readPrimaryType_fresh (hs : c.Fresh v s) :
    ∃ slot t, c.map.readPrimaryType s = (.ok (some slot), t) ∧
      slot.value = ((v.repo.nodes c.id).primaryShown v.known).natural ∧
      t.cache.slots.get? resourceTypeName = none := by
  obtain ⟨t, ht, hrun⟩ := run_readOr_fresh hs
    (show isPath primaryTypeName = false by decide)
    (some <$> c.map.cachePrimaryType)
  have hother : ∀ slot : Slot Repository, (Dict.empty.addNew primaryTypeName
      slot).get? resourceTypeName = none := by
    intro slot
    rw [Dict.get?_addNew_of_ne _ (by decide)]
    rfl
  unfold readPrimaryType
  rw [hrun, NodeState.primaryShown]
  cases hp : (v.repo.nodes c.id).property?
      (storageName v.known primaryTypeName) with
  | some p =>
      have hkey : p.key c.options = primaryTypeName := by
        rw [StoredProperty.key,
          ((hs.holds.wellFormed c.id).of_property?_eq_some hp).1]
        exact roundTrips_typeName (by decide) ..
      refine ⟨p.slot, _, rfl, rfl, ?_⟩
      rw [hkey]
      exact hother p.slot
  | none =>
      obtain ⟨w, hcached, -⟩ := run_cachePrimaryType ht.node
      refine ⟨_, _, by rw [run_map, hcached], ?_, ?_⟩
      · rw [ht.holds.empty]
        rfl
      · rw [ht.holds.empty]
        exact hother _

/-- A reading call that yields the answer of the node to a key. -/
def Site.Finds (c : Site) (v : Surroundings) (s : MapState Repository)
    (key : String) (x : MapM Repository (Option (Slot Repository))) :
    Prop :=
  ∃ slot? t, x s = (.ok slot?, t) ∧ slot?.map (·.value) =
    ((v.repo.nodes c.id).answer? c.options v.known key).map
      StoredProperty.natural

/-- A key finds its property, or else what has the word then. -/
theorem finds_readOr (hs : c.Fresh v s) {key : String}
    (hpath : isPath key = false)
    {otherwise : MapM Repository (Option (Slot Repository))}
    (hother : (v.repo.nodes c.id).property? (storageName v.known key) = none →
      ∀ t, c.Fresh v t → c.Finds v t key otherwise) :
    c.Finds v s key (c.map.readOr key otherwise) := by
  obtain ⟨t, ht, hrun⟩ := run_readOr_fresh hs hpath otherwise
  unfold Site.Finds
  rw [hrun]
  cases hp : (v.repo.nodes c.id).property? (storageName v.known key) with
  | none => exact hother hp t ht
  | some p =>
      rw [NodeState.answer?_of_property? hp]
      exact ⟨some p.slot, _, rfl, rfl⟩

theorem finds_readResourceType (hs : c.Fresh v s)
    (hsyn : c.options.synthesizeResourceType = true) :
    c.Finds v s resourceTypeName c.map.readResourceType := by
  refine finds_readOr hs (by decide) fun hnone t ht => ?_
  obtain ⟨slot, u, hprimary, hvalue, hfree⟩ := run_readPrimaryType_fresh ht
  unfold Site.Finds
  rw [NodeState.answer?_resourceTypeName hnone hsyn,
    run_bind_of_ok hprimary]
  dsimp only
  rw [hvalue, run_map, run_cacheValue, hfree]
  exact ⟨_, _, rfl, rfl⟩

/-- A fresh map finds the answer of the node under a key. -/
theorem get?_fresh (hs : c.Fresh v s) {key : String} (hne : key ≠ "")
    (hpath : isPath key = false) :
    (c.map.get? key s).1 = .ok (((v.repo.nodes c.id).answer? c.options v.known
      key).map StoredProperty.natural) := by
  have hread : c.Finds v s key (c.map.read key) := by
    unfold PropertyMap.read
    simp only [hne, if_false, hpath, Bool.false_eq_true]
    by_cases hp : key = primaryTypeName
    · subst hp
      obtain ⟨slot, t, hrun, hvalue, -⟩ := run_readPrimaryType_fresh hs
      rw [if_pos rfl]
      refine ⟨some slot, t, hrun, ?_⟩
      rw [NodeState.answer?_primaryTypeName]
      exact congrArg some hvalue
    rw [if_neg hp]
    split
    · next h =>
      obtain ⟨rfl, hsyn⟩ := h
      exact finds_readResourceType hs hsyn
    · next hr =>
      refine finds_readOr hs hpath fun hnone t _ => ⟨none, t, rfl, ?_⟩
      have hr' : ¬(key = resourceTypeName ∧
        c.options.synthesizeResourceType = true) := hr
      simp [NodeState.answer?, hnone, hp, hr']
  obtain ⟨slot?, t, hrun, hvalue⟩ := hread
  unfold get?
  rw [plainKey_of_not_isPath hpath, run_bind_of_ok hrun, ← hvalue]
  rfl

-- =========================================================== all keys

section Filling

variable {o : MapOptions} {n : NodeState} {d : Dict (Slot Repository)}

/-- Properties are added under their keys only. -/
theorem isSome_get?_addAll_iff {ps : List StoredProperty} {key : String} :
    ((addAll o d ps).get? key).isSome ↔
      (d.get? key).isSome ∨ ∃ p ∈ ps, p.key o = key := by
  induction ps generalizing d with
  | nil => simp [addAll]
  | cons p rest ih =>
    show ((addAll o (d.addNew (p.key o) p.slot) rest).get? key).isSome ↔ _
    rw [ih]
    by_cases h : p.key o = key
    · subst h
      rw [Dict.get?_addNew_self]
      simp
    · rw [Dict.get?_addNew_of_ne _ (Ne.symm h)]
      simp [h]

theorem get?_addTypes_of_ne {key : String} (hp : key ≠ primaryTypeName)
    (hr : key ≠ resourceTypeName) :
    (addTypes o n d).get? key = d.get? key := by
  have hprimary := Dict.get?_addNew_of_ne d hp
    (pendingSlot n.typeShown.natural)
  unfold addTypes
  dsimp only
  split
  · split
    · rw [Dict.get?_addNew_of_ne _ hr, hprimary]
    · exact hprimary
  · exact hprimary

/-- The keys of a fresh cache after a full read, but for those of types,
are those of the stored names. -/
theorem mem_keys_fill_empty {key : String} (hp : key ≠ primaryTypeName)
    (hr : key ≠ resourceTypeName) :
    key ∈ (fill o n Dict.empty).keys ↔
      ∃ p ∈ n.allProperties, p.key o = key := by
  rw [Dict.mem_keys_iff, fill, get?_addTypes_of_ne hp hr,
    isSome_get?_addAll_iff]
  simp [Dict.get?, Dict.empty]

end Filling

/-- A full read of a fresh map fills its cache, if the node can be
enumerated. -/
theorem readFully_fresh (hs : c.Fresh v s)
    (hcan : (v.repo.nodes c.id).failsEnumeration = false) :
    ∃ t, c.map.readFully s = (.ok (), t) ∧ c.surroundings t = v ∧
      t.cache = ⟨fill c.options (v.repo.nodes c.id) Dict.empty, true⟩ := by
  have hread : WereRead s.cache.slots := by
    rw [hs.holds.empty]
    intro key slot h
    cases h
  obtain ⟨w, hrun, hw⟩ := run_readFully hs.node (hs.holds.wellFormed c.id) hcan
    hs.holds.unread hread
  refine ⟨_, hrun, (congrArg Prod.snd (observed_world (c := c) hw)).trans
    hs.surroundings, ?_⟩
  rw [hs.holds.empty]
  rfl

/-- A fresh map lists the keys that a full read finds, and fails to only
if the node cannot be enumerated. -/
theorem keys_fresh (hs : c.Fresh v s) :
    ((v.repo.nodes c.id).failsEnumeration = true ∧
      ∃ e t, c.map.keys s = (.error e, t)) ∨
    ((v.repo.nodes c.id).failsEnumeration = false ∧
      ∃ t, c.map.keys s =
          (.ok (fill c.options (v.repo.nodes c.id) Dict.empty).keys, t) ∧
        c.surroundings t = v ∧
        t.cache = ⟨fill c.options (v.repo.nodes c.id) Dict.empty, true⟩) := by
  unfold keys
  cases hfails : (v.repo.nodes c.id).failsEnumeration with
  | true =>
      obtain ⟨w, hrun, -⟩ :=
        run_readFully_of_fails hs.node hfails hs.holds.unread
      exact .inl ⟨rfl, _, _, run_bind_of_error hrun _⟩
  | false =>
      obtain ⟨t, hrun, ht, hcache⟩ := readFully_fresh hs hfails
      refine .inr ⟨rfl, t, ?_, ht, hcache⟩
      rw [run_bind_of_ok hrun, run_bind_of_ok (MapM.run_slots t), hcache]
      rfl

end ContentProperties.Memory
