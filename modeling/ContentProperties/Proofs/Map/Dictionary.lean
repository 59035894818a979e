/-
A writable map that has read everything is an insertion-ordered
dictionary, whatever its node does. The file opens with the dictionary:
entries under distinct names, and for each request which replies it may
give and which entries it leaves. A write may always be refused, which
is all that a node can bring about; a write that is not refused replaces
an entry in its place, appends one, or drops one.

# The simulation

`Cache.listing` shows a cache as such entries. One request answers as
the dictionary may, and leaves the listing the dictionary then has
(`serves_answer`); a run of requests follows by induction
(`serve_refines_dictionary`). The steps come from `put_cases` and
`remove_cases`: a failed write has not touched the cache.

Putting many entries is putting them one after the other, on the states
of the map and of the world as well (`puts_putAll`).
-/
import ContentProperties.Proofs.Map.Steps
import ContentProperties.Repository.Memory

namespace ContentProperties

-- ====================================================== the dictionary

/-- What callers ask of a writable map. -/
inductive Request where
  | put (key : String) (v : Value)
  | putAll (entries : List (String × Value))
  | remove (key : String)
  | clear
  | get (key : String)
  | keys
  | entries
  | values
  | size
  | containsValue (v : Value)

/-- What callers get. -/
inductive Reply where
  | value (r : Except MapError (Option Value))
  | done (r : Except MapError Unit)
  | keys (r : Except MapError (List String))
  | entries (r : Except MapError (List (String × Value)))
  | values (r : Except MapError (List Value))
  | size (r : Except MapError Nat)
  | contained (r : Except MapError Bool)

namespace Dictionary

/-- What is found under a name: an entry that is there, or nothing where
there is none. -/
def Finds (d : List (String × Value)) (name : String) :
    Option Value → Prop
  | some v => (name, v) ∈ d
  | none => name ∉ namesOf d

/-- Storing under a name: the entry of the name is replaced where it
stands, or a new one comes last. -/
def Stores (name : String) (v : Value) (d : List (String × Value))
    (old : Option Value) (d' : List (String × Value)) : Prop :=
  (∃ front w back, d = front ++ (name, w) :: back ∧ old = some w ∧
    d' = front ++ (name, v) :: back) ∨
  (name ∉ namesOf d ∧ old = none ∧ d' = d ++ [(name, v)])

/-- Dropping a name: its entry is gone and the others stand as they
stood. -/
def Drops (name : String) (d : List (String × Value))
    (old : Option Value) (d' : List (String × Value)) : Prop :=
  (∃ front w back, d = front ++ (name, w) :: back ∧ old = some w ∧
    d' = front ++ back) ∨
  (name ∉ namesOf d ∧ old = none ∧ d' = d)

/-- Storing entries one after the other, up to the first that is
refused. -/
inductive StoresEach : List (String × Value) → List (String × Value) →
    Except MapError Unit → List (String × Value) → Prop where
  | nil (d) : StoresEach d [] (.ok ()) d
  | stored {d old d₁ key v rest r d'} :
      Stores (PropertyMap.plainKey key) v d old d₁ →
      StoresEach d₁ rest r d' → StoresEach d ((key, v) :: rest) r d'
  | refused {d key v rest} (e) :
      StoresEach d ((key, v) :: rest) (.error e) d

/-- The replies that a dictionary may give to a request, with the entries
it then has. Only writes may be refused. -/
inductive Serves : List (String × Value) → Request → Reply →
    List (String × Value) → Prop where
  | put {d key v old d'} : Stores (PropertyMap.plainKey key) v d old d' →
      Serves d (.put key v) (.value (.ok old)) d'
  | putRefused {d key v} (e) :
      Serves d (.put key v) (.value (.error e)) d
  | putAll {d entries r d'} : StoresEach d entries r d' →
      Serves d (.putAll entries) (.done r) d'
  | remove {d key old d'} : Drops (PropertyMap.plainKey key) d old d' →
      Serves d (.remove key) (.value (.ok old)) d'
  | removeRefused {d key} (e) :
      Serves d (.remove key) (.value (.error e)) d
  | clear {d} : Serves d .clear (.done (.error (.unsupported "clear"))) d
  | get {d key found} : Finds d (PropertyMap.plainKey key) found →
      Serves d (.get key) (.value (.ok found)) d
  | keys {d} : Serves d .keys (.keys (.ok (namesOf d))) d
  | entries {d} : Serves d .entries (.entries (.ok d)) d
  | values {d} : Serves d .values (.values (.ok (d.map (·.2)))) d
  | size {d} : Serves d .size (.size (.ok d.length)) d
  | containsValue {d v} : Serves d (.containsValue v)
      (.contained (.ok (d.any fun e => e.2 == v))) d

/-- A run of requests, each served by the entries that the one before it
left. -/
inductive ServesAll : List (String × Value) → List Request →
    List Reply → List (String × Value) → Prop where
  | nil (d) : ServesAll d [] [] d
  | cons {d q r d₁ qs rs d'} : Serves d q r d₁ → ServesAll d₁ qs rs d' →
      ServesAll d (q :: qs) (r :: rs) d'

end Dictionary

-- ================================================= the map as a server

/-- The requests whose keys are plain. -/
def Request.IsPlain : Request → Prop
  | .put key _ | .remove key | .get key => PropertyMap.IsPlain key
  | .putAll es => ∀ e ∈ es, PropertyMap.IsPlain e.1
  | _ => True

variable {σ : Type}

/-- A cache as its reader sees it: keys with their values. -/
def Cache.listing (c : Cache σ) : List (String × Value) :=
  c.slots.entries.map fun e => (e.1, e.2.value)

namespace PropertyMap

variable (m : PropertyMap σ)

/-- Has a map answer a request. -/
def answer : Request → MapState σ → Reply × MapState σ
  | .put key v, s => (.value (m.put key v s).1, (m.put key v s).2)
  | .putAll entries, s =>
      (.done (m.putAll entries s).1, (m.putAll entries s).2)
  | .remove key, s => (.value (m.remove key s).1, (m.remove key s).2)
  | .clear, s => (.done (m.clear s).1, (m.clear s).2)
  | .get key, s => (.value (m.get? key s).1, (m.get? key s).2)
  | .keys, s => (.keys (m.keys s).1, (m.keys s).2)
  | .entries, s => (.entries (m.entries s).1, (m.entries s).2)
  | .values, s => (.values (m.values s).1, (m.values s).2)
  | .size, s => (.size (m.size s).1, (m.size s).2)
  | .containsValue v, s =>
      (.contained (m.containsValue v s).1, (m.containsValue v s).2)

/-- Has a map answer requests one after the other. -/
def serve : List Request → MapState σ → List Reply × MapState σ
  | [], s => ([], s)
  | q :: qs, s =>
      let (r, t) := m.answer q s
      let (rs, u) := serve qs t
      (r :: rs, u)

/-- Putting entries one by one, from one state to another: up to the end,
or up to the first put that fails. -/
inductive Puts : List (String × Value) → MapState σ →
    Except MapError Unit → MapState σ → Prop where
  | nil (s) : Puts [] s (.ok ()) s
  | stored {key v rest s old t r u} : m.put key v s = (.ok old, t) →
      Puts rest t r u → Puts ((key, v) :: rest) s r u
  | refused {key v rest s e t} : m.put key v s = (.error e, t) →
      Puts ((key, v) :: rest) s (.error e) t

-- ============================================================ listings

theorem namesOf_listing (c : Cache σ) : namesOf c.listing = c.slots.keys := by
  simp [namesOf, Cache.listing, Dict.keys]

open Dictionary

theorem finds_listing (c : Cache σ) (name : String) :
    Finds c.listing name ((c.slots.get? name).map (·.value)) := by
  cases hslot : c.slots.get? name with
  | none =>
      show name ∉ namesOf c.listing
      rw [namesOf_listing]
      exact Dict.lookup_eq_none_iff.1 hslot
  | some slot =>
      exact List.mem_map.2
        ⟨(name, slot), Dict.mem_of_lookup_eq_some hslot, rfl⟩

theorem stores_listing (c : Cache σ) (name : String) (slot : Slot σ) :
    Stores name slot.value c.listing ((c.slots.get? name).map (·.value))
      (Cache.listing ⟨c.slots.set name slot, c.fullyRead⟩) := by
  rcases c.slots.set_cases name slot with
    ⟨front, old, back, hes, hget, hset⟩ | ⟨hnot, hget, hset⟩
  · refine .inl ⟨front.map fun e => (e.1, e.2.value), old.value,
      back.map fun e => (e.1, e.2.value), ?_, by rw [hget]; rfl, ?_⟩
    · rw [Cache.listing, hes]
      simp
    · rw [Cache.listing, hset]
      simp
  · refine .inr ⟨?_, by rw [hget]; rfl, ?_⟩
    · rwa [namesOf_listing]
    · rw [Cache.listing, hset]
      simp [Cache.listing]

theorem drops_listing (c : Cache σ) (name : String) :
    Drops name c.listing ((c.slots.get? name).map (·.value))
      (Cache.listing ⟨c.slots.erase name, c.fullyRead⟩) := by
  rcases c.slots.erase_cases name with
    ⟨front, old, back, hes, hget, herase⟩ | ⟨hnot, hget, herase⟩
  · refine .inl ⟨front.map fun e => (e.1, e.2.value), old.value,
      back.map fun e => (e.1, e.2.value), ?_, by rw [hget]; rfl, ?_⟩
    · rw [Cache.listing, hes]
      simp
    · rw [Cache.listing, herase]
      simp
  · refine .inr ⟨?_, by rw [hget]; rfl, ?_⟩
    · rwa [namesOf_listing]
    · rw [herase]

-- ============================================================ one step

variable {m} {s : MapState σ}

/-- A put answers as a dictionary may, and the map still has read
everything. -/
theorem serves_put (hw : m.writable = true) (hs : s.cache.fullyRead = true)
    {key : String} (hk : IsPlain key) (v : Value) :
    (∃ old t, m.put key v s = (.ok old, t) ∧
      t.cache.fullyRead = true ∧
      Stores (plainKey key) v s.cache.listing old t.cache.listing) ∨
    (∃ e t, m.put key v s = (.error e, t) ∧ t.cache = s.cache) := by
  rcases put_cases hw hs hk v with
    ⟨e, t, hprep, hput⟩ | ⟨_, change, u, e, t, hprep, hcommit, hput⟩ |
    ⟨entry, change, u, t, -, -, hput⟩
  · refine .inr ⟨e, t, hput, ?_⟩
    have h := m.keeps_cache_prepare (plainKey key) v s
    rwa [hprep] at h
  · refine .inr ⟨e, t, hput, ?_⟩
    have h₁ := m.keeps_cache_prepare (plainKey key) v s
    have h₂ := m.keeps_cache_commit (plainKey key) v change u
    rw [hprep] at h₁
    rw [hcommit] at h₂
    exact h₂.trans h₁
  · refine .inl ⟨_, _, hput, rfl, ?_⟩
    have h := stores_listing s.cache (plainKey key) ⟨entry, v⟩
    rwa [hs] at h

theorem serves_remove (hw : m.writable = true)
    (hs : s.cache.fullyRead = true) (key : String) :
    (∃ old t, m.remove key s = (.ok old, t) ∧
      t.cache.fullyRead = true ∧
      Drops (plainKey key) s.cache.listing old t.cache.listing) ∨
    (∃ e t, m.remove key s = (.error e, t) ∧ t.cache = s.cache) := by
  rcases remove_cases hw hs key with ⟨e, t, hgone, hrem⟩ | ⟨t, -, hrem⟩
  · refine .inr ⟨e, t, hrem, ?_⟩
    have h := m.keeps_cache_withdraw (plainKey key) s
    rwa [hgone] at h
  · refine .inl ⟨_, _, hrem, rfl, ?_⟩
    have h := drops_listing s.cache (plainKey key)
    rwa [hs] at h

/-- Putting each of some entries answers as a dictionary that stores
each. -/
theorem storesEach_putEach (hw : m.writable = true)
    {entries : List (String × Value)}
    (hk : ∀ e ∈ entries, IsPlain e.1) (hs : s.cache.fullyRead = true) :
    ∃ r t, m.putEach entries s = (r, t) ∧ t.cache.fullyRead = true ∧
      StoresEach s.cache.listing entries r t.cache.listing := by
  induction entries generalizing s with
  | nil => exact ⟨.ok (), s, rfl, hs, .nil _⟩
  | cons e rest ih =>
    obtain ⟨key, v⟩ := e
    have hkey : IsPlain key := hk _ (List.mem_cons_self ..)
    have hrest : ∀ e ∈ rest, IsPlain e.1 := fun e he =>
      hk e (List.mem_cons_of_mem _ he)
    unfold putEach
    rw [run_bind, run_discard]
    -- After a put the rest goes on from what it stored; a put that is
    -- refused is the last one.
    rcases serves_put hw hs hkey v with
      ⟨old, t, hput, ht, hstores⟩ | ⟨e, t, hput, ht⟩
    · obtain ⟨r, u, hrun, hu, hall⟩ := ih hrest ht
      rw [hput]
      exact ⟨r, u, hrun, hu, .stored hstores hall⟩
    · rw [hput]
      refine ⟨.error e, t, rfl, ht ▸ hs, ?_⟩
      rw [ht]
      exact .refused e

/-- One request is answered as a dictionary may answer it. -/
theorem serves_answer (hw : m.writable = true)
    (hs : s.cache.fullyRead = true) {q : Request} (hq : q.IsPlain) :
    Serves s.cache.listing q (m.answer q s).1 (m.answer q s).2.cache.listing ∧
      (m.answer q s).2.cache.fullyRead = true := by
  have hread := readFully_of_fullyRead (m := m) hs
  cases q with
  | put key v =>
      rcases serves_put hw hs hq v with
        ⟨old, t, hput, ht, hstores⟩ | ⟨e, t, hput, ht⟩
      · simp only [answer, hput]
        exact ⟨.put hstores, ht⟩
      · simp only [answer, hput, ht]
        exact ⟨.putRefused e, hs⟩
  | putAll entries =>
      obtain ⟨r, t, hrun, ht, hall⟩ := storesEach_putEach hw hq hs
      have hput : m.putAll entries s = (r, t) := by
        simpa [putAll, hw] using hrun
      simp only [answer, hput]
      exact ⟨.putAll hall, ht⟩
  | remove key =>
      rcases serves_remove hw hs key with
        ⟨old, t, hrem, ht, hdrops⟩ | ⟨e, t, hrem, ht⟩
      · simp only [answer, hrem]
        exact ⟨.remove hdrops, ht⟩
      · simp only [answer, hrem, ht]
        exact ⟨.removeRefused e, hs⟩
  | clear => exact ⟨.clear, hs⟩
  | get key =>
      simp only [answer, get?_of_fullyRead hs hq]
      exact ⟨.get (finds_listing ..), hs⟩
  | keys =>
      simp only [answer, keys, run_bind_of_ok hread,
        run_bind_of_ok (MapM.run_slots s), run_pure]
      rw [← namesOf_listing]
      exact ⟨.keys, hs⟩
  | entries =>
      simp only [answer, entries, run_bind_of_ok hread,
        run_bind_of_ok (MapM.run_slots s), run_pure]
      exact ⟨.entries, hs⟩
  | values =>
      have hvals : s.cache.slots.values.map (·.value) =
          s.cache.listing.map (·.2) := by
        simp [Dict.values, Cache.listing]
      simp only [answer, values, run_bind_of_ok hread,
        run_bind_of_ok (MapM.run_slots s), run_pure]
      rw [hvals]
      exact ⟨.values, hs⟩
  | size =>
      have hsize : s.cache.slots.size = s.cache.listing.length := by
        simp [Dict.size, Cache.listing]
      simp only [answer, size, run_bind_of_ok hread,
        run_bind_of_ok (MapM.run_slots s), run_pure]
      rw [hsize]
      exact ⟨.size, hs⟩
  | containsValue v =>
      have hany : (s.cache.slots.values.any fun slot => slot.value == v) =
          s.cache.listing.any fun e => e.2 == v := by
        simp [Dict.values, Cache.listing, List.any_map, Function.comp_def]
      simp only [answer, containsValue, run_bind_of_ok hread,
        run_bind_of_ok (MapM.run_slots s), run_pure]
      rw [hany]
      exact ⟨.containsValue, hs⟩

-- ================================================================ runs

/-- Putting many entries puts them one after the other and stops at the
first failure, with the same error and in the same state. -/
theorem puts_putAll (hw : m.writable = true)
    (entries : List (String × Value)) (s : MapState σ) :
    m.Puts entries s (m.putAll entries s).1 (m.putAll entries s).2 := by
  have hrun : m.putAll entries s = m.putEach entries s := by
    simp [putAll, hw]
  rw [hrun]
  induction entries generalizing s with
  | nil => exact .nil s
  | cons e rest ih =>
    obtain ⟨key, v⟩ := e
    unfold putEach
    rw [run_bind, run_discard]
    rcases hput : m.put key v s with ⟨e | old, t⟩
    · exact .refused hput
    · exact .stored hput (ih t (by simp [putAll, hw]))

/-- A run of requests is answered as a dictionary may answer it. -/
theorem servesAll_serve (hw : m.writable = true) {qs : List Request}
    (hq : ∀ q ∈ qs, q.IsPlain) (hs : s.cache.fullyRead = true) :
    ServesAll s.cache.listing qs (m.serve qs s).1
      (m.serve qs s).2.cache.listing := by
  induction qs generalizing s with
  | nil => exact .nil _
  | cons q qs ih =>
    obtain ⟨hstep, ht⟩ :=
      serves_answer hw hs (hq q (List.mem_cons_self ..))
    exact .cons hstep
      (ih (fun q hmem => hq q (List.mem_cons_of_mem _ hmem)) ht)

/-- A writable map that has read everything answers any run of requests
under plain keys as an insertion-ordered dictionary that starts with its
entries and may refuse writes; and putting many entries is putting them
one by one up to the first failure. The node is arbitrary. -/
theorem serve_refines_dictionary (m : PropertyMap σ)
    (hw : m.writable = true) (s : MapState σ)
    (hs : s.cache.fullyRead = true) (qs : List Request)
    (hq : ∀ q ∈ qs, q.IsPlain) :
    ServesAll s.cache.listing qs (m.serve qs s).1
        (m.serve qs s).2.cache.listing ∧
      (namesOf s.cache.listing).Nodup ∧
      ∀ entries t,
        m.Puts entries t (m.putAll entries t).1 (m.putAll entries t).2 := by
  refine ⟨servesAll_serve hw hq hs, ?_, puts_putAll hw⟩
  rw [namesOf_listing]
  exact s.cache.slots.nodup

/-- A node in memory, whose map has read everything and found nothing,
is asked to store an array of arrays, which it refuses. -/
theorem serve_refines_dictionary_of_empty :
    ServesAll [] [.put "./a" (.long 1), .put "b" (.array [.array []]),
        .remove "a", .clear, .keys]
      (serve ⟨Memory.node 0 0, ⟨.default, none⟩, true⟩
        [.put "./a" (.long 1), .put "b" (.array [.array []]),
          .remove "a", .clear, .keys]
        ⟨⟨.empty, true⟩, none, ⟨.empty, .empty⟩⟩).1
      (serve ⟨Memory.node 0 0, ⟨.default, none⟩, true⟩
        [.put "./a" (.long 1), .put "b" (.array [.array []]),
          .remove "a", .clear, .keys]
        ⟨⟨.empty, true⟩, none, ⟨.empty, .empty⟩⟩).2.cache.listing := by
  refine (serve_refines_dictionary
    ⟨Memory.node 0 0, ⟨.default, none⟩, true⟩ rfl
    ⟨⟨.empty, true⟩, none, ⟨.empty, .empty⟩⟩ rfl _ ?_).1
  intro q hq
  simp only [List.mem_cons, List.not_mem_nil, or_false] at hq
  rcases hq with rfl | rfl | rfl | rfl | rfl
  · show IsPlain "./a"
    decide
  · show IsPlain "b"
    decide
  · show IsPlain "a"
    decide
  · trivial
  · trivial

end PropertyMap

end ContentProperties
