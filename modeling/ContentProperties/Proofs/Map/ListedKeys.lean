/-
Writing to a key that was listed. A listing decodes stored names into
keys, in one of two encodings; a write escapes the key into a storage
name, in one encoding only. So a key may be listed for a property that
no write to the key reaches.

What a write does reach is the property of the key's storage name. A
remove succeeds, and the key is listed no longer unless some other
stored name has it too. A put of a string succeeds, and is read back
whatever other names there are, for a lookup goes to the storage name as
the write did.
-/
import ContentProperties.Proofs.Map.FreshReads
import ContentProperties.Proofs.Map.Listing
import ContentProperties.Proofs.Map.TextWrites

namespace ContentProperties.Memory

open PropertyMap

variable {c : Site} {v : Surroundings} {s t : MapState Repository}

/-- A map over surroundings of well-formed nodes that is emptied is fresh,
for a reader too. -/
theorem fresh_reader (ht : c.surroundings t = v) (hv : v.repo.WellFormed) :
    c.reader.Fresh v { t with cache := .empty } :=
  ⟨ht, hv, rfl⟩

/-- The properties that are left without one name. -/
theorem NodeState.WellFormed.mem_allProperties_withoutProperty
    {n : NodeState} (hn : n.WellFormed) {name : String}
    (hp : name ≠ primaryTypeName) (hm : name ≠ mixinTypesName)
    {p : StoredProperty} :
    p ∈ (n.withoutProperty name).allProperties ↔
      p ∈ n.allProperties ∧ p.name ≠ name := by
  rw [(hn.withoutProperty name).mem_allProperties_iff,
    hn.mem_allProperties_iff]
  by_cases h : p.name = name
  · rw [h, n.property?_withoutProperty_self hp hm]
    simp
  · rw [n.property?_withoutProperty_of_ne h]
    simp [h]

/-- Removing a key of a map that has read everything leaves the key to a
fresh listing exactly if another stored name has it. -/
theorem remove_then_keys (hw : c.writable = true) (hs : c.surroundings s = v)
    (hv : v.repo.WellFormed)
    (hcan : (v.repo.nodes c.id).failsEnumeration = false)
    (hread : s.cache.fullyRead = true) {key : String} (hne : key ≠ "")
    (hpath : isPath key = false) (hp : key ≠ primaryTypeName)
    (hm : key ≠ mixinTypesName) (hr : key ≠ resourceTypeName) :
    ∃ old t ks u, c.map.remove key s = (.ok old, t) ∧
      c.reader.map.keys { t with cache := .empty } = (.ok ks, u) ∧
      (key ∈ ks ↔ ∃ p ∈ (v.repo.nodes c.id).allProperties,
        p.key c.options = key ∧ p.name ≠ storageName v.known key) := by
  have hkey := plainKey_of_not_isPath hpath
  have hplain : IsPlain key := isPlain_of_not_isPath hne hpath
  have hpn := storageName_ne_typeName (by decide) v.known hp
  have hmn := storageName_ne_typeName (by decide) v.known hm
  obtain ⟨old, t, hrun, -, ht⟩ := remove_outcome hw hs hread hplain
    (by rwa [hkey]) (by rwa [hkey])
  rw [hkey] at ht
  have hnode : (v.repo.withoutProperty c.id (storageName v.known key)).nodes
      c.id = (v.repo.nodes c.id).withoutProperty (storageName v.known key) :=
    v.repo.nodes_modifyNode c.id _
  have hfresh := fresh_reader ht (hv.withoutProperty c.id _)
  rcases keys_fresh hfresh with ⟨hfails, -⟩ | ⟨-, u, hkeys, -⟩
  · rw [show c.reader.id = c.id from rfl, hnode] at hfails
    exact absurd (hcan.symm.trans hfails) (by decide)
  · -- What is listed then has other names than the one that was removed.
    refine ⟨old, t, _, u, hrun, hkeys, ?_⟩
    rw [mem_keys_fill_empty hp hr, show c.reader.id = c.id from rfl, hnode]
    simp only [(hv c.id).mem_allProperties_withoutProperty hpn hmn]
    constructor
    · rintro ⟨p, ⟨hmem, hname⟩, hpkey⟩
      exact ⟨p, hmem, hpkey, hname⟩
    · rintro ⟨p, hmem, hpkey, hname⟩
      exact ⟨p, ⟨hmem, hname⟩, hpkey⟩

/-- A string that was put into a map that has read everything is read by a
fresh map. -/
theorem put_text_then_get? (hw : c.writable = true)
    (hs : c.surroundings s = v) (hv : v.repo.WellFormed)
    (hread : s.cache.fullyRead = true) {key : String} (hne : key ≠ "")
    (hpath : isPath key = false) (hp : key ≠ primaryTypeName)
    (hm : key ≠ mixinTypesName) (x : String) :
    ∃ old t, c.map.put key (.string x) s = (.ok old, t) ∧
      (c.reader.map.get? key { t with cache := .empty }).1 =
        .ok (some (.string x)) := by
  have hpn := storageName_ne_typeName (by decide) v.known hp
  have hmn := storageName_ne_typeName (by decide) v.known hm
  obtain ⟨old, t, hrun, -, ht⟩ := put_text hw hs hread hne hpath hmn x
  refine ⟨old, t, hrun, ?_⟩
  have hfresh := fresh_reader ht
    (hv.modifyNode fun n hn => hn.withText hmn x)
  have hstored : ((v.repo.modifyNode c.id
      (·.withText (storageName v.known key) x)).nodes c.id).property?
        (storageName v.known key) =
      some (.single (storageName v.known key) .string (.string x)) := by
    rw [Repository.nodes_modifyNode]
    exact NodeState.property?_withText_self _ hpn hmn x
  rw [get?_fresh hfresh hne hpath, show c.reader.id = c.id from rfl,
    NodeState.answer?_of_property? hstored]
  rfl

/-- What writes do to a key once a fresh map has listed the node, for
every key but those of types. A remove succeeds, and a fresh map lists
the key still exactly if a stored name has it that is not the storage
name of the key; and a put of a string succeeds, and a fresh map reads
the string. -/
theorem writes_after_listing (c : Site) (hw : c.writable = true)
    (s : MapState Repository) (hwf : s.world.repo.WellFormed)
    (hs : s.cache = Cache.empty) {ks : List String}
    {listing : MapState Repository}
    (hkeys : c.map.keys s = (.ok ks, listing)) {key : String}
    (hne : key ≠ "") (hpath : isPath key = false)
    (hp : key ≠ primaryTypeName) (hm : key ≠ mixinTypesName)
    (hr : key ≠ resourceTypeName) :
    (key ∈ ks ↔ ∃ p ∈ (s.world.repo.nodes c.id).allProperties,
      p.key c.options = key) ∧
    (∃ old t ks' u, c.map.remove key listing = (.ok old, t) ∧
      c.reader.map.keys { t with cache := .empty } = (.ok ks', u) ∧
      (key ∈ ks' ↔ ∃ p ∈ (s.world.repo.nodes c.id).allProperties,
        p.key c.options = key ∧ p.name ≠ storageName (c.known s) key)) ∧
    ∀ x, ∃ old t, c.map.put key (.string x) listing = (.ok old, t) ∧
      (c.reader.map.get? key { t with cache := .empty }).1 =
        .ok (some (.string x)) := by
  have hv : (c.surroundings s).repo.WellFormed :=
    Repository.wellFormed_content.2 hwf
  have hfresh : c.Fresh (c.surroundings s) s := ⟨rfl, hv, hs⟩
  rcases keys_fresh hfresh with
    ⟨-, e, t, hfailed⟩ | ⟨hcan, t, hlisted, ht, hcache⟩
  · rw [hkeys] at hfailed
    cases hfailed
  · rw [hkeys] at hlisted
    cases hlisted
    have hread : listing.cache.fullyRead = true := by rw [hcache]
    exact ⟨mem_keys_fill_empty hp hr,
      remove_then_keys hw ht hv hcan hread hne hpath hp hm hr,
      fun x => put_text_then_get? hw ht hv hread hne hpath hp hm x⟩

/-- In the sample the key is stored under its own name only. Once listed,
it is gone after a remove and shows what is put under it. -/
theorem writes_after_listing_sample :
    ∃ ks listing, Site.sample.map.keys Site.sampleState = (.ok ks, listing) ∧
      "a" ∈ ks ∧
      (∃ old t ks' u, Site.sample.map.remove "a" listing = (.ok old, t) ∧
        Site.sample.reader.map.keys { t with cache := .empty } =
          (.ok ks', u) ∧ "a" ∉ ks') ∧
      ∃ old t, Site.sample.map.put "a" (.string "x") listing = (.ok old, t) ∧
        (Site.sample.reader.map.get? "a" { t with cache := .empty }).1 =
          .ok (some (.string "x")) := by
  obtain ⟨ks, listing, hkeys⟩ : ∃ ks listing,
      Site.sample.map.keys Site.sampleState = (.ok ks, listing) :=
    ⟨_, _, rfl⟩
  obtain ⟨hlisted, ⟨old, t, ks', u, hremove, hkeys', hleft⟩, hput⟩ :=
    writes_after_listing Site.sample rfl Site.sampleState
      Repository.wellFormed_sample rfl hkeys (show "a" ≠ "" by decide)
      (by decide) (by decide) (by decide) (by decide)
  have hkey : ∃ p ∈ (Site.sampleState.world.repo.nodes 0).allProperties,
      p.key Site.sample.options = "a" := by decide +kernel
  have hname : ¬∃ p ∈ (Site.sampleState.world.repo.nodes 0).allProperties,
      p.key Site.sample.options = "a" ∧
      p.name ≠ storageName (Site.sample.known Site.sampleState) "a" := by
    decide +kernel
  exact ⟨ks, listing, hkeys, hlisted.2 hkey,
    ⟨old, t, ks', u, hremove, hkeys', fun hmem => hname (hleft.1 hmem)⟩,
    hput "x"⟩

/-- An older writer stored a title under an encoded name. -/
def legacyState : MapState Repository :=
  ⟨.empty, none, ⟨.empty, Repository.empty.withProperty 0
    (.single "my_x0020_title" .string (.string "old"))⟩⟩

/-- The title is listed under its key, and is listed still after a remove
of the key that succeeded: the remove looked for another name. -/
theorem remove_misses_legacy_name :
    ∃ ks listing t ks' u,
      Site.sample.map.keys legacyState = (.ok ks, listing) ∧
      "my title" ∈ ks ∧
      Site.sample.map.remove "my title" listing =
        (.ok (some (.string "old")), t) ∧
      Site.sample.reader.map.keys { t with cache := .empty } =
        (.ok ks', u) ∧
      "my title" ∈ ks' := by
  refine ⟨_, _, _, _, _, rfl, ?_, rfl, rfl, ?_⟩
  · decide +kernel
  · decide +kernel

end ContentProperties.Memory
