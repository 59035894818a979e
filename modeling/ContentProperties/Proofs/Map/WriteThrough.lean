/-
Write-through coherence. A map that starts empty is driven by any puts
and removes, of which some may fail; a fresh map over the same node
shows the same keys, the normal forms of the values, and the same order
except for types that stand in for properties (`Agree`).

# The invariant

A map is `Coherent` in its surroundings when it has read nothing, or has
read everything and mirrors the node (Mirror.lean). Every write keeps
that: the first one reads everything, and then the write goes to node
and cache or to neither (`perform_cases`). So a failed write leaves no
trace but the full read, which is there also when the write is refused
for its value alone.
-/
import ContentProperties.Proofs.Map.Lookup
import ContentProperties.Proofs.Map.Mirror
import Mathlib.Data.List.Induction

namespace ContentProperties.Memory

open PropertyMap

-- ============================================================ coherence

variable {c : Site} {v : Surroundings} {s t : MapState Repository}

/-- The cache of a map in surroundings that can be read. Nothing was read
to it, or everything, and then it mirrors the node. -/
structure Site.CoherentIn (c : Site) (v : Surroundings)
    (cache : Cache Repository) : Prop where
  readable : c.Readable v
  emptyOrRead : cache = Cache.empty ∨
    (cache.fullyRead = true ∧
      (v.repo.nodes c.id).failsEnumeration = false ∧
      Mirrors (v.repo.nodes c.id) c.options v.known cache.slots)

/-- A map in surroundings that can be read. It has read nothing, or has
read everything and mirrors the node. -/
abbrev Site.Coherent (c : Site) (v : Surroundings)
    (s : MapState Repository) : Prop :=
  c.Stands v (c.CoherentIn v) s

namespace Site.Coherent

/-- A map that has read everything mirrors the node. -/
theorem mirrors (hs : c.Coherent v s) (hread : s.cache.fullyRead = true) :
    (v.repo.nodes c.id).failsEnumeration = false ∧
      Mirrors (v.repo.nodes c.id) c.options v.known s.cache.slots := by
  rcases hs.holds.emptyOrRead with hempty | ⟨-, hcan, hd⟩
  · rw [hempty] at hread
    cases hread
  · exact ⟨hcan, hd⟩

/-- A map of a node that cannot be enumerated has read nothing. -/
theorem empty_of_fails (hs : c.Coherent v s)
    (hfails : (v.repo.nodes c.id).failsEnumeration = true) :
    s.cache = Cache.empty := by
  rcases hs.holds.emptyOrRead with hempty | ⟨-, hcan, -⟩
  · exact hempty
  · rw [hfails] at hcan
    cases hcan

theorem fresh (hs : c.Coherent v s) :
    c.Lazy v { s with cache := .empty } :=
  ⟨hs.surroundings, faithful_empty, rfl⟩

end Site.Coherent

theorem lazy_of_empty (hs : c.surroundings s = v)
    (hcache : s.cache = Cache.empty) : c.Lazy v s := by
  refine ⟨hs, ?_, ?_⟩
  · rw [hcache]
    exact faithful_empty
  · rw [hcache]
    rfl

/-- A full read of a coherent map leaves one that has read everything; or
it fails, and then the map has nothing still. -/
theorem readFully_coherent (hs : c.Coherent v s) :
    ((v.repo.nodes c.id).failsEnumeration = true ∧
      s.cache = Cache.empty ∧
      ∃ t, c.map.readFully s =
          (.error (v.repo.nodes c.id).enumerationError, t) ∧
        c.observed t = c.observed s) ∨
    ((v.repo.nodes c.id).failsEnumeration = false ∧
      ∃ t, c.map.readFully s = (.ok (), t) ∧ c.Coherent v t ∧
        t.cache.fullyRead = true) := by
  rcases hs.holds.emptyOrRead with hempty | ⟨hread, hfails, hd⟩
  · have hlazy := lazy_of_empty hs.surroundings hempty
    cases hfails : (v.repo.nodes c.id).failsEnumeration with
    | true =>
        obtain ⟨w, hrun, hw⟩ :=
          run_readFully_of_fails hs.node hfails hlazy.holds.unread
        exact .inl ⟨rfl, hempty, _, hrun, observed_world hw⟩
    | false =>
        obtain ⟨w, hrun, hw⟩ := run_readFully hs.node
          hs.holds.readable.node.wellFormed hfails hlazy.holds.unread
          hlazy.holds.faithful.wereRead
        refine .inr ⟨rfl, _, hrun,
          ⟨?_, hs.holds.readable, .inr ⟨rfl, hfails, ?_⟩⟩, rfl⟩
        · have hworld := observed_world (c := c) hw
          exact (congrArg Prod.snd hworld).trans hs.surroundings
        · rw [hempty]
          exact mirrors_fill_empty hs.holds.readable.node
  · exact .inr ⟨hfails, s, readFully_of_fullyRead hread, hs, hread⟩

-- =============================================================== writes

/-- A put or a remove. -/
inductive Write where
  | put (key : String) (x : Value)
  | remove (key : String)

/-- The key that is written to. -/
def Write.key : Write → String
  | .put key _ => key
  | .remove key => key

/-- Whether a write is to a property key, with a value that holds no
content. -/
def Write.Admissible (o : MapOptions) (known : List String) :
    Write → Prop
  | .put key x =>
      PropertyKey o.legacyPathEncoding known key ∧ x.holdsContent = false
  | .remove key => PropertyKey o.legacyPathEncoding known key

theorem Write.Admissible.isPlain {o : MapOptions} {known : List String}
    {w : Write} (h : w.Admissible o known) : IsPlain w.key := by
  cases w with
  | put key x => exact h.1.isPlain
  | remove key => exact PropertyKey.isPlain h

/-- Performs a write. -/
def Site.perform (c : Site) :
    Write → MapM Repository (Option Value)
  | .put key x => c.map.put key x
  | .remove key => c.map.remove key

/-- The state after writes, one after the other, whether they fail or
not. -/
def Site.performAll (c : Site) (s : MapState Repository)
    (writes : List Write) : MapState Repository :=
  writes.foldl (fun s w => (c.perform w s).2) s

/-- Surroundings that the map finds its properties in alike, whatever
these are. -/
structure Site.Akin (c : Site) (v v' : Surroundings) : Prop where
  known : v'.known = v.known
  fails : (v'.repo.nodes c.id).failsEnumeration =
    (v.repo.nodes c.id).failsEnumeration

theorem Site.Akin.trans {v' v'' : Surroundings} (h : c.Akin v v')
    (h' : c.Akin v' v'') : c.Akin v v'' :=
  ⟨h'.known.trans h.known, h'.fails.trans h.fails⟩

theorem Site.Readable.modifyNode (hv : c.Readable v)
    {f : NodeState → NodeState}
    (hf : (f (v.repo.nodes c.id)).Readable c.options v.known) :
    c.Readable ⟨v.repo.modifyNode c.id f, v.known⟩ := by
  have hnode := v.repo.nodes_modifyNode c.id f
  constructor
  · intro id
    by_cases hid : id = c.id
    · rw [hid, hnode]
      exact hf.wellFormed
    · have hother : (v.repo.modifyNode c.id f).nodes id = v.repo.nodes id :=
        if_neg hid
      rw [hother]
      exact hv.wellFormed id
  · rw [hnode]
    exact hf.canonical

/-- A change of node and cache that keeps them in step leaves a coherent
map. -/
theorem Site.Coherent.changed (hs : c.Coherent v s)
    (hread : s.cache.fullyRead = true) {f : NodeState → NodeState}
    {d : Dict (Slot Repository)}
    (hreadable : (f (v.repo.nodes c.id)).Readable c.options v.known)
    (hfails : (f (v.repo.nodes c.id)).failsEnumeration =
      (v.repo.nodes c.id).failsEnumeration)
    (hstep : Mirrors (v.repo.nodes c.id) c.options v.known s.cache.slots →
      Mirrors (f (v.repo.nodes c.id)) c.options v.known d)
    (hcache : t.cache = ⟨d, true⟩)
    (ht : c.surroundings t = ⟨v.repo.modifyNode c.id f, v.known⟩) :
    ∃ v', c.Akin v v' ∧ c.Coherent v' t ∧ t.cache.fullyRead = true := by
  have hnode := v.repo.nodes_modifyNode c.id f
  refine ⟨⟨v.repo.modifyNode c.id f, v.known⟩, ⟨rfl, ?_⟩,
    ⟨ht, hs.holds.readable.modifyNode hreadable, .inr ?_⟩, ?_⟩
  · rw [hnode]
    exact hfails
  · obtain ⟨hcan, hd⟩ := hs.mirrors hread
    rw [hcache, hnode]
    exact ⟨rfl, hfails.trans hcan, hstep hd⟩
  · rw [hcache]

/-- A put to a map that has read everything fails and is not observed, or
goes to node and cache. -/
theorem put_coherent (hw : c.writable = true) (hs : c.Coherent v s)
    (hread : s.cache.fullyRead = true) {key : String}
    (hk : PropertyKey c.options.legacyPathEncoding v.known key) {x : Value}
    (hx : x.holdsContent = false) :
    (∃ e t, c.map.put key x s = (.error e, t) ∧
      c.observed t = c.observed s) ∨
    (∃ old t v', c.map.put key x s = (.ok old, t) ∧ c.Akin v v' ∧
      c.Coherent v' t ∧ t.cache.fullyRead = true) := by
  obtain ⟨hp, hm⟩ := hk.storageName_ne
  have hkey := plainKey_of_not_isPath hk.noPath
  have houtcomes := put_outcomes hw hs.surroundings hread
    hk.isPlain (by rwa [hkey]) (by rwa [hkey]) x
  rw [hkey] at houtcomes
  rcases houtcomes with hfailed | ⟨old, p, t, hrun, hname, hholds, hcache, ht⟩
  · exact .inl hfailed
  have hcanonical : Canonical c.options.legacyPathEncoding v.known p.name := by
    rw [hname]
    exact congrArg (storageName v.known) hk.roundTrips
  rw [← hname] at hp hm
  obtain ⟨v', hakin, hcoherent, hread'⟩ := hs.changed hread
    (hs.holds.readable.node.withProperty hp hm hholds.wellFormed hcanonical) rfl
    (fun hd => hd.set hs.holds.readable.node hk hname (hholds.normalForm? hx))
    hcache ht
  exact .inr ⟨old, t, v', hrun, hakin, hcoherent, hread'⟩

/-- A remove goes to node and cache. -/
theorem remove_coherent (hw : c.writable = true) (hs : c.Coherent v s)
    (hread : s.cache.fullyRead = true) {key : String}
    (hk : PropertyKey c.options.legacyPathEncoding v.known key) :
    ∃ old t v', c.map.remove key s = (.ok old, t) ∧ c.Akin v v' ∧
      c.Coherent v' t ∧ t.cache.fullyRead = true := by
  obtain ⟨hp, hm⟩ := hk.storageName_ne
  have hkey := plainKey_of_not_isPath hk.noPath
  have houtcome := remove_outcome hw hs.surroundings hread
    hk.isPlain (by rwa [hkey]) (by rwa [hkey])
  rw [hkey] at houtcome
  obtain ⟨old, t, hrun, hcache, ht⟩ := houtcome
  obtain ⟨v', hakin, hcoherent, hread'⟩ := hs.changed hread
    (hs.holds.readable.node.withoutProperty hp hm) rfl
    (fun hd => hd.erase hs.holds.readable.node hk) hcache ht
  exact ⟨old, t, v', hrun, hakin, hcoherent, hread'⟩

/-- A write reads everything first, and if that fails, so does the
write. -/
theorem perform_of_readFully (hw : c.writable = true) {w : Write}
    (hk : IsPlain w.key) :
    c.perform w s = match c.map.readFully s with
      | (.ok _, t) => c.perform w t
      | (.error e, t) => (.error e, t) := by
  cases w with
  | put key x =>
      have hrun := put_of_readFully (m := c.map) (s := s) hw hk x
      rcases hfull : c.map.readFully s with ⟨e | _, t⟩ <;>
        rw [hfull] at hrun <;> exact hrun
  | remove key =>
      have hrun := remove_of_readFully (m := c.map) (s := s) hw key
      rcases hfull : c.map.readFully s with ⟨e | _, t⟩ <;>
        rw [hfull] at hrun <;> exact hrun

/-- While the node cannot be enumerated, every write to a coherent map
fails as listing does, before it is made. -/
theorem perform_of_fails (hw : c.writable = true) (hs : c.Coherent v s)
    (hfails : (v.repo.nodes c.id).failsEnumeration = true) {w : Write}
    (hk : IsPlain w.key) :
    ∃ t, c.perform w s = (.error (v.repo.nodes c.id).enumerationError, t) ∧
      c.observed t = c.observed s := by
  rcases readFully_coherent hs with
    ⟨-, -, t, hfull, ht⟩ | ⟨hcan, -⟩
  · refine ⟨t, ?_, ht⟩
    rw [perform_of_readFully hw hk, hfull]
  · rw [hfails] at hcan
    cases hcan

/-- What an admissible write does to a coherent map: it fails, with no
trace but that of the full read, or goes to node and cache. -/
theorem perform_cases (hw : c.writable = true) (hs : c.Coherent v s)
    {w : Write} (hadm : w.Admissible c.options v.known) :
    (∃ e t, c.perform w s = (.error e, t) ∧ c.Coherent v t ∧
      t.cache = (c.map.readFully s).2.cache) ∨
    (∃ old t v', c.perform w s = (.ok old, t) ∧ c.Akin v v' ∧
      c.Coherent v' t ∧ t.cache.fullyRead = true) := by
  rcases readFully_coherent hs with
    ⟨-, -, t, hfull, ht⟩ | ⟨-, t, hfull, ht, hread⟩
  · have hstart : c.perform w s =
        (.error (v.repo.nodes c.id).enumerationError, t) := by
      rw [perform_of_readFully hw hadm.isPlain, hfull]
    refine .inl ⟨_, t, hstart, hs.congr ht, ?_⟩
    rw [hfull]
  · have hstart : c.perform w s = c.perform w t := by
      rw [perform_of_readFully hw hadm.isPlain, hfull]
    rw [hstart, hfull]
    cases w with
    | put key x =>
        rcases put_coherent hw ht hread hadm.1 hadm.2 with
          ⟨e, u, hrun, hu⟩ | hdone
        · exact .inl ⟨e, u, hrun, ht.congr hu, congrArg Prod.fst hu⟩
        · exact .inr hdone
    | remove key => exact .inr (remove_coherent hw ht hread hadm)

/-- A write that fails leaves the repository as it is, and the cache as a
full read leaves it. -/
theorem of_perform_failed (hw : c.writable = true) (hs : c.Coherent v s)
    {w : Write} (hadm : w.Admissible c.options v.known) {e : MapError}
    (hrun : c.perform w s = (.error e, t)) :
    contentOf t.world = contentOf s.world ∧
      t.cache = (c.map.readFully s).2.cache := by
  rcases perform_cases hw hs hadm with
    ⟨e', t', hrun', ht, hcache⟩ | ⟨old, t', v', hrun', -⟩
  · rw [hrun] at hrun'
    cases hrun'
    exact ⟨ht.content.trans hs.content.symm, hcache⟩
  · rw [hrun] at hrun'
    cases hrun'

/-- A full read leaves the cache of a map that has read everything, or
that cannot. -/
theorem cache_readFully_coherent (hs : c.Coherent v s)
    (hread : (v.repo.nodes c.id).failsEnumeration = false →
      s.cache.fullyRead = true) :
    (c.map.readFully s).2.cache = s.cache := by
  rcases readFully_coherent hs with ⟨-, -, t, hfull, ht⟩ | ⟨hcan, -⟩
  · rw [hfull]
    exact congrArg Prod.fst ht
  · rw [readFully_of_fullyRead (hread hcan)]

-- ================================================================= runs

/-- A write leaves a coherent map, and one that has read everything if
the node can be enumerated. -/
theorem coherent_perform (hw : c.writable = true) (hs : c.Coherent v s)
    {w : Write} (hadm : w.Admissible c.options v.known) :
    ∃ v', c.Akin v v' ∧ c.Coherent v' (c.perform w s).2 ∧
      ((v.repo.nodes c.id).failsEnumeration = false →
        (c.perform w s).2.cache.fullyRead = true) := by
  rcases perform_cases hw hs hadm with
    ⟨e, t, hrun, ht, hcache⟩ | ⟨old, t, v', hrun, hakin, ht, hread⟩
  · rw [hrun]
    refine ⟨v, ⟨rfl, rfl⟩, ht, fun hcan => ?_⟩
    rcases readFully_coherent hs with
      ⟨hfails, -⟩ | ⟨-, u, hfull, -, hread⟩
    · rw [hcan] at hfails
      cases hfails
    · rw [hcache, hfull]
      exact hread
  · rw [hrun]
    exact ⟨v', hakin, ht, fun _ => hread⟩

theorem coherent_performAll (hw : c.writable = true)
    (hs : c.Coherent v s) {ws : List Write}
    (hadm : ∀ w ∈ ws, w.Admissible c.options v.known) :
    ∃ v', c.Akin v v' ∧ c.Coherent v' (c.performAll s ws) ∧
      (ws ≠ [] → (v.repo.nodes c.id).failsEnumeration = false →
        (c.performAll s ws).cache.fullyRead = true) := by
  induction ws using List.reverseRecOn with
  | nil => exact ⟨v, ⟨rfl, rfl⟩, hs, fun h => absurd rfl h⟩
  | append_singleton ws w ih =>
    obtain ⟨v', hakin, ht, -⟩ :=
      ih fun u hu => hadm u (List.mem_append_left _ hu)
    have hw' : w.Admissible c.options v'.known := by
      rw [hakin.known]
      exact hadm w (List.mem_append_right _ (List.mem_singleton_self w))
    obtain ⟨v'', hakin', hu, hread⟩ := coherent_perform hw ht hw'
    have hrun : c.performAll s (ws ++ [w]) =
        (c.perform w (c.performAll s ws)).2 := by
      simp [Site.performAll]
    rw [hrun]
    exact ⟨v'', hakin.trans hakin', hu,
      fun _ hcan => hread (hakin.fails.trans hcan)⟩

-- ========================================================== comparisons

/-- In a state of the map and one of a reader the same is found under a
key, up to its normal form. -/
def Site.FindsAlike (c : Site) (t u : MapState Repository)
    (key : String) : Prop :=
  ∃ x? y?, (c.map.get? key t).1 = .ok x? ∧
    (c.reader.map.get? key u).1 = .ok y? ∧ FindsNormalForm x? y?

/-- In a state of the map and one of a reader the entries agree, and the
same is found under every key once they were listed; or, if the node
cannot be enumerated, listing fails in both alike. -/
def Site.ShowAlike (c : Site) (known : List String)
    (t u : MapState Repository) : Prop :=
  if (c.node t).failsEnumeration then
    ∃ e, (c.map.entries t).1 = .error e ∧
      (c.reader.map.entries u).1 = .error e
  else
    ∃ es t' fs u', c.map.entries t = (.ok es, t') ∧
      c.reader.map.entries u = (.ok fs, u') ∧
      Agree ((c.node t).synthesizes known) es fs ∧
      ∀ key, c.FindsAlike t' u' key

theorem findsNormalForm_natural (p? : Option StoredProperty) :
    FindsNormalForm (p?.map StoredProperty.natural)
      (p?.map StoredProperty.natural) := by
  cases p? with
  | none => exact .none
  | some p => exact .some p.normalForm?_natural

theorem run_entries {m : PropertyMap Repository}
    (hfull : m.readFully s = (.ok (), t)) :
    m.entries s = (.ok t.cache.listing, t) := by
  unfold entries
  rw [run_bind_of_ok hfull, run_bind_of_ok (MapM.run_slots t)]
  rfl

theorem get?_of_plainKey_eq {m : PropertyMap Repository} {key : String}
    (h : plainKey key = "") : m.get? key s = (.ok none, s) := by
  unfold get? PropertyMap.read
  rw [h]
  rfl

/-- Before the reader has read anything, it finds what a coherent map
has under a key that is that of its storage name. -/
theorem findsAlike_fresh (ht : c.Coherent v t) {key : String}
    (hpath : isPath key = false)
    (hk : RoundTrips c.options.legacyPathEncoding v.known key) :
    c.FindsAlike t { t with cache := .empty } key := by
  have hv : c.reader.Readable v := ⟨ht.holds.readable.1, ht.holds.readable.2⟩
  have hfresh : c.reader.Lazy v { t with cache := .empty } :=
    ⟨ht.surroundings, faithful_empty, rfl⟩
  obtain ⟨y?, u, hrun, -, hy⟩ := run_get?_lazy hv hfresh key
  have hkey := plainKey_of_not_isPath hpath
  rcases ht.holds.emptyOrRead with hempty | ⟨hread, -, hd⟩
  · obtain ⟨x?, u', hrun', -, hx⟩ :=
      run_get?_lazy ht.holds.readable (lazy_of_empty ht.surroundings hempty) key
    refine ⟨x?, y?, by rw [hrun'], by rw [hrun], ?_⟩
    rw [hx hpath, hy hpath]
    by_cases hne : key = ""
    · rw [if_pos hne, if_pos hne]
      exact .none
    · rw [if_neg hne, if_neg hne]
      exact findsNormalForm_natural _
  · by_cases hne : key = ""
    · refine ⟨none, y?, ?_, by rw [hrun], ?_⟩
      · rw [get?_of_plainKey_eq (hkey.trans hne)]
      · rw [hy hpath, if_pos hne]
        exact .none
    · have hplain : IsPlain key := by
        rw [IsPlain, hkey]
        exact ⟨hne, hpath⟩
      refine ⟨_, y?, by rw [get?_of_fullyRead hread hplain], by rw [hrun], ?_⟩
      have hfill := get?_fill ht.holds.readable.node
        (faithful_empty (o := c.options)) hk
      rw [hy hpath, if_neg hne, hkey]
      have hanswer : c.reader.answer? v key =
        (v.repo.nodes c.id).answer? c.options v.known key := rfl
      rw [hanswer, ← hfill]
      exact hd.finds ht.holds.readable.node key

/-- Once both have read everything, they find the same under every
key. -/
theorem findsAlike_fullyRead (ht : c.Coherent v t)
    (hread : t.cache.fullyRead = true) {u : MapState Repository}
    (hu : c.surroundings u = v)
    (hcache : u.cache =
      ⟨fill c.options (v.repo.nodes c.id) Dict.empty, true⟩)
    (key : String) : c.FindsAlike t u key := by
  by_cases hne : plainKey key = ""
  · exact ⟨none, none, by rw [get?_of_plainKey_eq hne],
      by rw [get?_of_plainKey_eq hne], .none⟩
  cases hpath : isPath (plainKey key) with
  | true =>
      -- a path is read in the repository, by the one as by the other
      have hget : ∀ (c' : Site) (s : MapState Repository), c'.id = c.id →
          c'.options = c.options → c.surroundings s = v →
          (c'.map.get? key s).1 = .ok
            ((c.resolve? v.repo (plainKey key)).map
              StoredProperty.natural) := by
        intro c' s hid ho hs
        obtain ⟨w, -, hrun⟩ := run_readPath (c := c') (s := s)
          (by
            rw [content_of_surroundings hs]
            exact ht.holds.readable.wellFormed)
          (plainKey key)
        have hresolve : c'.resolve? (contentOf s.world) (plainKey key) =
            c.resolve? v.repo (plainKey key) := by
          unfold Site.resolve?
          rw [hid, ho, content_of_surroundings hs]
        unfold get? PropertyMap.read
        rw [if_neg hne, if_pos hpath, run_bind_of_ok hrun, hresolve]
        show Except.ok _ = _
        rw [Option.map_map]
        rfl
      exact ⟨_, _, hget c t rfl rfl ht.surroundings,
        hget c.reader u rfl rfl hu, findsNormalForm_natural _⟩
  | false =>
      have hplain : IsPlain key := ⟨hne, hpath⟩
      have hread' : u.cache.fullyRead = true := by rw [hcache]
      refine ⟨_, _, by rw [get?_of_fullyRead hread hplain],
        by rw [get?_of_fullyRead hread' hplain], ?_⟩
      rw [hcache]
      exact (ht.mirrors hread).2.finds ht.holds.readable.node (plainKey key)

/-- A coherent map and a fresh reader show the same. -/
theorem showAlike_fresh (ht : c.Coherent v t) :
    c.ShowAlike v.known t { t with cache := .empty } := by
  have hfresh : c.reader.Coherent v { t with cache := .empty } :=
    ⟨ht.surroundings, ⟨ht.holds.readable.1, ht.holds.readable.2⟩, .inl rfl⟩
  unfold Site.ShowAlike
  rw [ht.node]
  rcases readFully_coherent ht with
    ⟨hfails, -, t', hfull, -⟩ | ⟨hcan, t', hfull, ht', hread⟩
  · rw [if_pos hfails]
    rcases readFully_coherent hfresh with
      ⟨-, -, u', hfull', -⟩ | ⟨hcan, -⟩
    · have hentries : ∀ {m : PropertyMap Repository}
          {s s' : MapState Repository} {e : MapError},
          m.readFully s = (.error e, s') → m.entries s = (.error e, s') := by
        intro m s s' e h
        exact run_bind_of_error h _
      exact ⟨_, by rw [hentries hfull], by rw [hentries hfull']; rfl⟩
    · exact absurd (hcan.symm.trans hfails) (by decide)
  · have hlazy := hfresh.fresh
    obtain ⟨w, hfull', hw⟩ := run_readFully (c := c.reader) hfresh.node
      ht.holds.readable.node.wellFormed hcan rfl hlazy.holds.faithful.wereRead
    have hu : c.surroundings ⟨⟨fill c.options (v.repo.nodes c.id)
        Dict.empty, true⟩, t.prefixes, w⟩ = v := by
      have hworld := observed_world (c := c) (s := t) hw
      exact (congrArg Prod.snd hworld).trans ht.surroundings
    rw [if_neg (by rw [hcan]; decide)]
    exact ⟨_, t', _, _, run_entries hfull, run_entries hfull',
      (ht'.mirrors hread).2.agree ht.holds.readable.node,
      fun key => findsAlike_fullyRead ht' hread hu rfl key⟩

/-- A map that starts empty is driven by writes, of which some may fail.
A fresh map over the node then shows the same entries in the same order
and finds the same under every key, up to normal forms and to the places
of types that stand in for properties. A further write that fails leaves
the repository as it is, and the cache as a full read leaves it, which
is as it was unless nothing had been written before. Where the node
cannot be enumerated, every write fails and nothing is ever cached. -/
theorem writes_show_in_fresh_map (c : Site) (hw : c.writable = true)
    (s : MapState Repository) (hwf : s.world.repo.WellFormed)
    (hcanonical : ∀ p ∈ (s.world.repo.nodes c.id).allProperties,
      Canonical c.options.legacyPathEncoding (c.known s) p.name)
    (hs : s.cache = Cache.empty) (writes : List Write)
    (hwrites : ∀ w ∈ writes, w.Admissible c.options (c.known s)) :
    let t := c.performAll s writes
    c.ShowAlike (c.known s) t { t with cache := .empty } ∧
      (∀ key, isPath key = false →
        RoundTrips c.options.legacyPathEncoding (c.known s) key →
        c.FindsAlike t { t with cache := .empty } key) ∧
      (∀ w, w.Admissible c.options (c.known s) →
        ∀ e u, c.perform w t = (.error e, u) →
          contentOf u.world = contentOf t.world ∧
          u.cache = (c.map.readFully t).2.cache ∧
          (writes ≠ [] → u.cache = t.cache)) ∧
      ((c.node s).failsEnumeration = true →
        t.cache = Cache.empty ∧
        ∀ w, w.Admissible c.options (c.known s) →
          ∃ e u, c.perform w t = (.error e, u) ∧ u.cache = Cache.empty) := by
  have hv : c.Readable (c.surroundings s) :=
    ⟨Repository.wellFormed_content.2 hwf, hcanonical⟩
  have hstart : c.Coherent (c.surroundings s) s := ⟨rfl, hv, .inl hs⟩
  obtain ⟨v, hakin, ht, hread⟩ := coherent_performAll hw hstart hwrites
  have hknown : v.known = c.known s := hakin.known
  refine ⟨?_, fun key hpath hk => ?_, fun w hadm e u hrun => ?_,
    fun hfails => ?_⟩
  · rw [← hknown]
    exact showAlike_fresh ht
  · rw [← hknown] at hk
    exact findsAlike_fresh ht hpath hk
  · rw [← hknown] at hadm
    obtain ⟨hcontent, hcache⟩ := of_perform_failed hw ht hadm hrun
    refine ⟨hcontent, hcache, fun hne => hcache.trans ?_⟩
    exact cache_readFully_coherent ht fun hcan =>
      hread hne (hakin.fails.symm.trans hcan)
  · have hfails' : (v.repo.nodes c.id).failsEnumeration = true :=
      hakin.fails.trans hfails
    have hempty := ht.empty_of_fails hfails'
    refine ⟨hempty, fun w hadm => ?_⟩
    obtain ⟨u, hrun, hu⟩ := perform_of_fails hw ht hfails' hadm.isPlain
    exact ⟨_, u, hrun, (congrArg Prod.fst hu).trans hempty⟩

/-- In the sample the put of an array of arrays is refused, between a put
and a remove that succeed. A fresh map shows the same all the same. -/
theorem writes_to_sample_show_in_fresh_map :
    (∀ w ∈ [Write.put "b" (.string "x"), .put "c" (.array [.array []]),
        .remove "a"],
      w.Admissible Site.sample.options
        (Site.sample.known Site.sampleState)) ∧
    Site.sample.ShowAlike (Site.sample.known Site.sampleState)
      (Site.sample.performAll Site.sampleState
        [.put "b" (.string "x"), .put "c" (.array [.array []]), .remove "a"])
      { Site.sample.performAll Site.sampleState
          [.put "b" (.string "x"), .put "c" (.array [.array []]),
            .remove "a"] with cache := .empty } := by
  have hwrites : ∀ w ∈ [Write.put "b" (.string "x"),
      .put "c" (.array [.array []]), .remove "a"],
      w.Admissible Site.sample.options
        (Site.sample.known Site.sampleState) := by
    intro w hw
    rcases List.mem_cons.1 hw with rfl | hw
    · exact ⟨propertyKey_sample (by decide), rfl⟩
    rcases List.mem_cons.1 hw with rfl | hw
    · exact ⟨propertyKey_sample (by decide), rfl⟩
    · rw [List.mem_singleton.1 hw]
      exact propertyKey_sample (by decide)
  exact ⟨hwrites, (writes_show_in_fresh_map Site.sample rfl Site.sampleState
    Repository.wellFormed_sample canonical_sample rfl _ hwrites).1⟩

/-- A write that fails is observed all the same if nothing was read
before: it has read everything. -/
theorem refused_put_leaves_full_read :
    ∃ e t, Site.sample.perform (.put "b" (.array [.array []]))
        Site.sampleState = (.error e, t) ∧
      Site.sampleState.cache.fullyRead = false ∧
      t.cache.fullyRead = true :=
  ⟨_, _, rfl, rfl, rfl⟩

end ContentProperties.Memory
