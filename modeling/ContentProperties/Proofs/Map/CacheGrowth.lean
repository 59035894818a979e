/-
Reading only adds to the cache. Whatever node stands behind the map, and
whether its calls succeed or fail: what is cached stays as it is where
it is, and what is new comes behind it (`Grows`). Paths are not cached
at all. A full read is noted exactly if it succeeds, and from then on
nothing is added any more.
-/
import ContentProperties.Proofs.Map.CacheInvariants

namespace ContentProperties.PropertyMap

variable {σ α β : Type} (m : PropertyMap σ)

/-- However the call ends, it has added entries at most, and not noted a
full read. -/
def Grows (op : MapM σ α) : Prop :=
  ∀ s, s.cache.slots.entries <+: (op s).2.cache.slots.entries ∧
    (op s).2.cache.fullyRead = s.cache.fullyRead

theorem grows_of_keeps {op : MapM σ α} (h : Keeps MapState.cache op) :
    Grows op := by
  intro s
  rw [h s]
  exact ⟨List.prefix_rfl, rfl⟩

theorem grows_pure (a : α) : Grows (pure a : MapM σ α) :=
  grows_of_keeps (keeps_pure a)

theorem grows_bind {op : MapM σ α} {rest : α → MapM σ β} (h : Grows op)
    (hrest : ∀ a, Grows (rest a)) : Grows (op >>= rest) := by
  intro s
  have hs := h s
  rw [run_bind]
  rcases hop : op s with ⟨e | a, t⟩ <;> rw [hop] at hs
  · exact hs
  · obtain ⟨hadds, hnoted⟩ := hrest a t
    exact ⟨hs.1.trans hadds, hnoted.trans hs.2⟩

-- ============================================================ growth

/-- Entries have been added to the one cache to make the other. -/
def GrownFrom (c c' : Cache σ) : Prop :=
  c.slots.entries <+: c'.slots.entries ∧ c'.fullyRead = c.fullyRead

/-- A cache that has grown has grown still with one more slot under a free
key. -/
theorem takesIn_grownFrom (c : Cache σ) :
    TakesIn (GrownFrom c) fun _ _ => True where
  cached := fun _ _ _ _ _ => trivial
  added := by
    rintro c' key slot ⟨hadds, hnoted⟩ -
    refine ⟨hadds.trans ?_, hnoted⟩
    rw [Dict.entries_addNew]
    exact List.prefix_append ..

/-- To grow, a cache need not know what slots are made of. -/
theorem makes_any : m.Makes fun _ _ => True :=
  ⟨fun _ _ _ _ _ _ => trivial, fun _ _ _ _ _ => trivial,
    fun _ _ _ _ _ _ _ => trivial⟩

theorem grows_of_sustains {Q : α → Prop} {op : MapM σ α}
    (h : ∀ c, Sustains (GrownFrom c) Q op) : Grows op :=
  fun s => (h s.cache s ⟨List.prefix_rfl, rfl⟩).1

/-- Reading a key adds a slot or two, and is no full read. -/
theorem grows_read (key : String) : Grows (m.read key) :=
  grows_of_sustains fun c =>
    sustains_read (takesIn_grownFrom c) (makes_any m) key

-- ============================================================= paths

/-- What is read at one name goes past the cache. -/
theorem keeps_cache_readAt (name : String)
    {otherwise : MapM σ (Option (Slot σ))}
    (h : Keeps MapState.cache otherwise) :
    Keeps MapState.cache (m.readAt name otherwise) := by
  refine keeps_bind (MapM.keeps_ofAct fun _ => rfl) fun p? => ?_
  cases p? with
  | none => exact h
  | some p => exact keeps_map (MapM.keeps_ofAct fun _ => rfl) _

/-- What is read at a path is not cached. -/
theorem keeps_cache_readPath (path : String) :
    Keeps MapState.cache (m.readPath path) := by
  have hlast : ∀ name, Keeps MapState.cache (m.readAt name (pure none)) :=
    fun name => keeps_cache_readAt m name (keeps_pure none)
  unfold readPath
  dsimp only
  split
  · refine keeps_cache_readAt m _ ?_
    split
    · exact keeps_pure none
    · exact hlast _
  · exact hlast _

-- ========================================================== reading all

/-- A full read only adds entries, and is noted exactly if it succeeds. -/
theorem cache_readFully (s : MapState σ) :
    s.cache.slots.entries <+: (m.readFully s).2.cache.slots.entries ∧
    ((m.readFully s).2.cache.fullyRead = true ↔
      (m.readFully s).1 = .ok ()) := by
  cases hs : s.cache.fullyRead with
  | true =>
    rw [readFully_of_fullyRead hs]
    exact ⟨List.prefix_rfl, iff_of_true hs rfl⟩
  | false =>
    have hnode : ∀ f, Grows (MapM.mapError f m.cacheNode) := fun f =>
      grows_of_sustains fun c => sustains_mapError
        (sustains_cacheNode (takesIn_grownFrom c) (makes_any m)) f
    -- The path of the node, asked for the sake of messages, is not cached.
    rw [readFully_of_unread hs, run_bind, MapM.run_attempt]
    dsimp only
    rw [run_bind]
    generalize hf : whileReading _ = f
    have h := hnode f { s with world := (m.node.path s.world).2 }
    rcases hop : MapM.mapError f m.cacheNode
      { s with world := (m.node.path s.world).2 } with ⟨e | _, t⟩ <;>
      rw [hop] at h
    · refine ⟨h.1, iff_of_false ?_ (by simp)⟩
      rw [show t.cache.fullyRead = _ from h.2]
      simp [hs]
    · exact ⟨h.1, iff_of_true rfl rfl⟩

end ContentProperties.PropertyMap
