/-
All views of a map show one dictionary. Once a full read succeeds, the
views without a key list the entries of the cache, and looking a key up
finds them one by one. What has been found before stays what is shown.

The two sides meet in the cache but come to it by different ways: the
lists run over it as it is, while a lookup passes the checks on keys
first. They part at one key only. Nothing is ever found under the empty
key, and yet a value can be stored under it, which is listed then
(`empty_key_is_listed_only`).
-/
import ContentProperties.Proofs.Map.CacheGrowth
import ContentProperties.Proofs.Map.Dictionary
import ContentProperties.Proofs.Map.Reading

namespace ContentProperties

variable {σ : Type}

-- ================================================= views without a key

/-- What a map shows of all its entries. -/
structure Views where
  size : Nat
  isEmpty : Bool
  keys : List String
  entries : List (String × Value)
  values : List Value

/-- The views are of the same entries, under distinct keys. -/
structure Views.Agree (w : Views) : Prop where
  keysCounted : w.keys.length = w.size
  entriesCounted : w.entries.length = w.size
  valuesCounted : w.values.length = w.size
  distinct : w.keys.Nodup
  paired : w.entries = w.keys.zip w.values
  empty : w.isEmpty = true ↔ w.size = 0

/-- The views of a cache. -/
def Cache.views (c : Cache σ) : Views where
  size := c.slots.size
  isEmpty := c.slots.size == 0
  keys := c.slots.keys
  entries := c.listing
  values := c.listing.map (·.2)

theorem Cache.agree_views (c : Cache σ) : c.views.Agree where
  keysCounted := by simp [views, Dict.keys, namesOf, Dict.size]
  entriesCounted := by simp [views, listing, Dict.size]
  valuesCounted := by simp [views, listing, Dict.size]
  distinct := c.slots.nodup
  paired := by
    show c.listing = c.slots.keys.zip (c.listing.map (·.2))
    rw [← PropertyMap.namesOf_listing, namesOf, List.zip_map']
    exact (List.map_id' c.listing).symm
  empty := by simp [views]

namespace PropertyMap

/-- Each view of a map, asked for in one state, and the state that it
leaves. -/
structure Shows (m : PropertyMap σ) (s : MapState σ) (w : Views)
    (t : MapState σ) : Prop where
  size : m.size s = (.ok w.size, t)
  isEmpty : m.isEmpty s = (.ok w.isEmpty, t)
  keys : m.keys s = (.ok w.keys, t)
  entries : m.entries s = (.ok w.entries, t)
  values : m.values s = (.ok w.values, t)
  containsValue : ∀ v,
    m.containsValue v s = (.ok (w.values.any fun x => x == v), t)

variable {m : PropertyMap σ} {s t : MapState σ}

/-- After the full read every view is taken from the cache. -/
theorem shows_of_readFully (h : m.readFully s = (.ok (), t)) :
    m.Shows s t.cache.views t := by
  have hslots := MapM.run_slots t
  have hsize : m.size s = (.ok t.cache.slots.size, t) := by
    rw [PropertyMap.size, run_bind_of_ok h, run_bind_of_ok hslots]
    rfl
  refine ⟨hsize, ?_, ?_, ?_, ?_, fun v => ?_⟩
  · rw [isEmpty, run_bind_of_ok hsize]
    rfl
  · rw [keys, run_bind_of_ok h, run_bind_of_ok hslots]
    rfl
  · rw [entries, run_bind_of_ok h, run_bind_of_ok hslots]
    rfl
  · rw [values, run_bind_of_ok h, run_bind_of_ok hslots, run_pure]
    simp [Cache.views, Cache.listing, Dict.values, Function.comp_def]
  · rw [containsValue, run_bind_of_ok h, run_bind_of_ok hslots, run_pure]
    simp [Cache.views, Cache.listing, Dict.values, List.any_map,
      Function.comp_def]

-- ============================================================= lookups

/-- The slot that a lookup finds in a cache that is final. -/
def found? (c : Cache σ) (key : String) : Option (Slot σ) :=
  if key = "" then none else c.slots.get? key

/-- After the full read a key that is no path is found in the cache, the
empty one apart. -/
theorem read_of_not_isPath (ht : t.cache.fullyRead = true) {key : String}
    (hpath : isPath key = false) :
    m.read key t = (.ok (found? t.cache key), t) := by
  unfold found?
  by_cases hne : key = ""
  · rw [if_pos hne, hne]
    rfl
  · rw [if_neg hne]
    exact read_of_fullyRead ht hne hpath

theorem isSome_found?_iff (c : Cache σ) (key : String) :
    (found? c key).isSome = true ↔ key ≠ "" ∧ key ∈ c.views.keys := by
  unfold found?
  by_cases hne : key = ""
  · simp [hne]
  · rw [if_neg hne]
    simp only [ne_eq, hne, not_false_eq_true, true_and]
    exact Dict.mem_keys_iff.symm

theorem value_found?_iff (c : Cache σ) (key : String) (v : Value) :
    (found? c key).map (·.value) = some v ↔
      key ≠ "" ∧ (key, v) ∈ c.views.entries := by
  unfold found?
  by_cases hne : key = ""
  · simp [hne]
  · rw [if_neg hne]
    simp only [Option.map_eq_some_iff, ne_eq, hne, not_false_eq_true, true_and,
      Cache.views, Cache.listing, List.mem_map, Prod.mk.injEq]
    constructor
    · rintro ⟨slot, hslot, rfl⟩
      exact ⟨(key, slot), Dict.mem_entries_iff.2 hslot, rfl, rfl⟩
    · rintro ⟨⟨_, slot⟩, hmem, rfl, rfl⟩
      exact ⟨slot, Dict.mem_entries_iff.1 hmem, rfl⟩

/-- What is cached is found before the full read too. -/
theorem read_of_cached {key : String} {slot : Slot σ} (hne : key ≠ "")
    (hpath : isPath key = false) (h : s.cache.slots.get? key = some slot) :
    m.read key s = (.ok (some slot), s) := by
  unfold read
  simp only [hne, if_false, hpath, Bool.false_eq_true]
  split
  · next heq =>
    rw [heq] at h
    exact readOr_of_cached h _
  · split
    · next heq =>
      rw [heq.1] at h
      exact readOr_of_cached h _
    · exact readOr_of_cached h _

theorem get?_of_cached {key : String} {slot : Slot σ} (hne : key ≠ "")
    (hpath : isPath key = false) (h : s.cache.slots.get? key = some slot) :
    m.get? key s = (.ok (some slot.value), s) := by
  rw [get?, plainKey_of_not_isPath hpath,
    run_bind_of_ok (read_of_cached hne hpath h)]
  rfl

/-- All views of a map agree once its full read succeeds, whatever state
it starts from and whatever its node is. The sizes are the same, keys are
distinct, and entries pair the keys with the values. A key that is no
path is found exactly if it is listed and not empty, with the value that
is listed, and what was cached before is what is found. -/
theorem views_agree (m : PropertyMap σ) (s t : MapState σ)
    (h : m.readFully s = (.ok (), t)) :
    ∃ w : Views, m.Shows s w t ∧ w.Agree ∧
      ∀ key, isPath key = false → ∃ contained found,
        m.containsKey key s = (.ok contained, t) ∧
        m.get? key t = (.ok found, t) ∧
        (contained = true ↔ key ≠ "" ∧ key ∈ w.keys) ∧
        (found = none ↔ key = "" ∨ key ∉ w.keys) ∧
        (∀ v, found = some v ↔ key ≠ "" ∧ (key, v) ∈ w.entries) ∧
        (key ∈ s.cache.slots.keys → key ≠ "" →
          m.get? key s = (.ok found, s)) := by
  refine ⟨t.cache.views, shows_of_readFully h, t.cache.agree_views, ?_⟩
  intro key hpath
  have ht : t.cache.fullyRead = true := fullyRead_of_readFully h
  have hread : m.read (plainKey key) t = (.ok (found? t.cache key), t) := by
    rw [plainKey_of_not_isPath hpath]
    exact read_of_not_isPath ht hpath
  have hlisted := isSome_found?_iff t.cache key
  refine ⟨(found? t.cache key).isSome, (found? t.cache key).map (·.value),
    ?_, ?_, hlisted, ?_, value_found?_iff t.cache key, ?_⟩
  · rw [containsKey, run_bind_of_ok h, run_bind_of_ok hread]
    rfl
  · rw [get?, run_bind_of_ok hread]
    rfl
  · rw [Option.map_eq_none_iff, ← Option.not_isSome_iff_eq_none, hlisted]
    simp [or_iff_not_imp_left]
  · -- The full read adds entries behind those that are cached.
    intro hcached hne
    obtain ⟨slot, hslot⟩ := Option.isSome_iff_exists.1
      (Dict.mem_keys_iff.1 hcached)
    obtain ⟨hadds, -⟩ := cache_readFully m s
    rw [h] at hadds
    have hkept : t.cache.slots.get? key = some slot :=
      Dict.mem_entries_iff.1 (hadds.subset (Dict.mem_entries_iff.2 hslot))
    rw [get?_of_cached hne hpath hslot, found?, if_neg hne, hkept]
    rfl

/-- A value is looked up first, and then everything is listed. -/
theorem views_agree_after_lookup :
    ∃ s t, Memory.Site.sample.map.get? "a" Memory.Site.sampleState =
        (.ok (some (.long 7)), s) ∧
      Memory.Site.sample.map.readFully s = (.ok (), t) ∧
      ∃ w : Views, Memory.Site.sample.map.Shows s w t ∧ w.Agree ∧
        ("a", .long 7) ∈ w.entries ∧
        Memory.Site.sample.map.get? "a" t = (.ok (some (.long 7)), t) := by
  have hfirst : ∃ s t, Memory.Site.sample.map.get? "a"
        Memory.Site.sampleState = (.ok (some (.long 7)), s) ∧
      Memory.Site.sample.map.readFully s = (.ok (), t) ∧
      "a" ∈ s.cache.slots.keys ∧
      Memory.Site.sample.map.get? "a" s = (.ok (some (.long 7)), s) :=
    ⟨_, _, rfl, rfl, by decide +kernel, rfl⟩
  obtain ⟨s, t, hasked, hread, hcached, hagain⟩ := hfirst
  obtain ⟨w, hshows, hagree, hfinds⟩ :=
    views_agree Memory.Site.sample.map s t hread
  obtain ⟨_, found, -, hget, -, -, hlisted, hbefore⟩ :=
    hfinds "a" (by decide)
  have hfound : found = some (.long 7) := by
    rw [hbefore hcached (by decide)] at hagain
    exact Except.ok.inj (congrArg Prod.fst hagain)
  rw [hfound] at hget
  exact ⟨s, t, hasked, hread, w, hshows, hagree,
    ((hlisted _).1 hfound).2, hget⟩

/-- A value that was stored under the empty key is listed, and yet the
key is not found. -/
theorem empty_key_is_listed_only :
    ∃ t keys, Memory.Site.sample.map.put "" (.long 1)
        Memory.Site.sampleState = (.ok none, t) ∧
      Memory.Site.sample.map.keys t = (.ok keys, t) ∧ "" ∈ keys ∧
      Memory.Site.sample.map.containsKey "" t = (.ok false, t) ∧
      Memory.Site.sample.map.get? "" t = (.ok none, t) :=
  ⟨_, _, rfl, rfl, by decide +kernel, rfl, rfl⟩

end PropertyMap

end ContentProperties
