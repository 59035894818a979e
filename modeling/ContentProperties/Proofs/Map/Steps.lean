/-
What the operations of a map do once all properties have been read,
whatever node stands behind it: reading asks the cache alone, and a
write either fails and leaves the cache as it was, or succeeds and
changes one slot.

Nothing is assumed of the node. Its calls may fail, change it, or change
what other calls will answer; what carries the statements is only that
the cache is touched last. `put_cases` and `remove_cases` say once what
a write can do, and the files on writing cite them.
-/
import ContentProperties.Proofs.Calls
import ContentProperties.Proofs.Name.StorageNames

namespace ContentProperties.PropertyMap

variable {σ : Type} (m : PropertyMap σ)

-- ================================================================ keys

/-- Only a path can lose a `./`. -/
theorem plainKey_of_not_isPath {key : String} (h : isPath key = false) :
    plainKey key = key := by
  unfold plainKey
  split
  · next rest hkey =>
    simp [isPath, hkey] at h
  · rfl

/-- A key that callers may use for a property of the node itself: without
a `./` in front it is not empty and no path. -/
def IsPlain (key : String) : Prop :=
  plainKey key ≠ "" ∧ isPath (plainKey key) = false

instance (key : String) : Decidable (IsPlain key) :=
  inferInstanceAs (Decidable (_ ∧ _))

theorem isPlain_of_not_isPath {key : String} (hne : key ≠ "")
    (hpath : isPath key = false) : IsPlain key := by
  rw [IsPlain, plainKey_of_not_isPath hpath]
  exact ⟨hne, hpath⟩

theorem PropertyKey.isPlain {legacy : Bool} {known : List String}
    {key : String} (hk : PropertyKey legacy known key) : IsPlain key :=
  isPlain_of_not_isPath hk.nonempty hk.noPath

theorem plainKey_plainKey {key : String} (h : IsPlain key) :
    plainKey (plainKey key) = plainKey key :=
  plainKey_of_not_isPath h.2

-- ================================================== the cache is kept

/-- The calls that prepare a write, or report its failure, leave the
cache alone. -/
theorem keeps_cache_escapeKey (key : String) :
    Keeps MapState.cache (m.escapeKey key) := by
  have hask : Keeps MapState.cache
      (MapM.ofAct m.node.session.namespacePrefixes) :=
    MapM.keeps_ofAct fun _ => rfl
  have hknown : Keeps MapState.cache
      (m.provider.namespacePrefixes m.node.session) := by
    unfold Provider.namespacePrefixes
    split
    · refine keeps_bind (fun _ => rfl) fun known => ?_
      cases known with
      | some known => exact keeps_pure known
      | none =>
          exact keeps_bind hask fun _ =>
            keeps_bind (fun _ => rfl) fun _ => keeps_pure _
    · exact hask
  unfold escapeKey
  split
  · exact keeps_pure _
  · refine keeps_bind (keeps_bind hknown fun _ => keeps_pure _) fun b => ?_
    cases b <;> exact keeps_pure _

theorem keeps_cache_rejected {α : Type} (key : String) (v : Value)
    (reason : String) :
    Keeps MapState.cache (m.rejected key v reason : MapM σ α) :=
  keeps_bind (keeps_bind (fun _ => rfl) fun _ => keeps_pure _)
    fun _ => keeps_throw _

theorem keeps_cache_notRemoved {α : Type} (key reason : String) :
    Keeps MapState.cache (m.notRemoved key reason : MapM σ α) :=
  keeps_bind (keeps_bind (fun _ => rfl) fun _ => keeps_pure _)
    fun _ => keeps_throw _

theorem keeps_cache_prepare (key : String) (v : Value) :
    Keeps MapState.cache (m.prepare key v) := by
  unfold prepare
  refine keeps_bind
    (MapM.keeps_result (MapM.keeps_ofEntry fun _ => rfl)) fun made => ?_
  cases made with
  | error e => exact m.keeps_cache_rejected key v e.message
  | ok entry =>
      exact keeps_bind (m.keeps_cache_escapeKey key) fun _ =>
        keeps_bind (MapM.keeps_ofConversion fun _ => rfl) fun _ =>
          keeps_pure _

theorem keeps_cache_commit (key : String) (v : Value) (change : Change) :
    Keeps MapState.cache (m.commit key v change) := by
  unfold commit
  refine keeps_bind (fun _ => rfl) fun done => ?_
  cases done with
  | error e => exact m.keeps_cache_rejected key v e.message
  | ok _ => exact keeps_pure _

theorem keeps_cache_withdraw (key : String) :
    Keeps MapState.cache (m.withdraw key) := by
  unfold withdraw
  refine keeps_bind (m.keeps_cache_escapeKey key) fun name =>
    keeps_bind (fun _ => rfl) fun done => ?_
  cases done with
  | error e => exact m.keeps_cache_notRemoved key e.message
  | ok _ => exact keeps_pure _

-- ============================================= after the full read

variable {m} {s : MapState σ}

theorem readFully_of_fullyRead (hs : s.cache.fullyRead = true) :
    m.readFully s = (.ok (), s) := by
  unfold readFully
  rw [run_bind, MapM.run_isFullyRead]
  simp [hs]

/-- The full read that is not done yet. -/
theorem readFully_of_unread (hs : s.cache.fullyRead = false) :
    m.readFully s = (do
      let path ← MapM.attempt m.node.path
      MapM.mapError (whileReading (path.toOption.getD "")) m.cacheNode
      MapM.setFullyRead : MapM σ Unit) s := by
  unfold readFully
  rw [run_bind, MapM.run_isFullyRead]
  simp [hs]

/-- A full read that succeeds is noted. -/
theorem fullyRead_of_readFully {t : MapState σ}
    (h : m.readFully s = (.ok (), t)) : t.cache.fullyRead = true := by
  cases hs : s.cache.fullyRead with
  | true =>
      rw [readFully_of_fullyRead hs] at h
      cases h
      exact hs
  | false =>
      rw [readFully_of_unread hs] at h
      obtain ⟨_, _, -, h⟩ := ok_of_run_bind h
      obtain ⟨_, _, -, h⟩ := ok_of_run_bind h
      rw [MapM.run_setFullyRead] at h
      cases h
      rfl

/-- What is cached is yielded, and nothing changes. -/
theorem readOr_of_cached {key : String} {slot : Slot σ}
    (h : s.cache.slots.get? key = some slot)
    (otherwise : MapM σ (Option (Slot σ))) :
    m.readOr key otherwise s = (.ok (some slot), s) := by
  unfold readOr
  rw [run_bind_of_ok (MapM.run_slots s), h]
  rfl

/-- After the full read the cache decides alone, and nothing changes. -/
theorem readOr_of_fullyRead (hs : s.cache.fullyRead = true) (key : String)
    (otherwise : MapM σ (Option (Slot σ))) :
    m.readOr key otherwise s = (.ok (s.cache.slots.get? key), s) := by
  cases hslot : s.cache.slots.get? key with
  | some slot => exact readOr_of_cached hslot otherwise
  | none =>
      unfold readOr
      rw [run_bind_of_ok (MapM.run_slots s), hslot]
      dsimp only
      rw [run_bind_of_ok (MapM.run_isFullyRead s), hs]
      rfl

/-- A key that is no path is read like any other, if it has a property. -/
theorem exists_readOr {key : String} (hne : key ≠ "")
    (hpath : isPath key = false) :
    ∃ otherwise, m.read key = m.readOr key otherwise := by
  unfold read
  simp only [hne, if_false, hpath, Bool.false_eq_true]
  split
  · next heq =>
    subst heq
    exact ⟨_, rfl⟩
  · split
    · next heq =>
      obtain ⟨rfl, -⟩ := heq
      exact ⟨_, rfl⟩
    · exact ⟨_, rfl⟩

theorem read_of_fullyRead (hs : s.cache.fullyRead = true) {key : String}
    (hne : key ≠ "") (hpath : isPath key = false) :
    m.read key s = (.ok (s.cache.slots.get? key), s) := by
  obtain ⟨otherwise, hread⟩ := exists_readOr (m := m) hne hpath
  rw [hread]
  exact readOr_of_fullyRead hs key otherwise

/-- A key that is no path and has no rule of its own is one to read. -/
theorem read_eq_readOr {key : String} (hne : key ≠ "")
    (hpath : isPath key = false) (hprimary : key ≠ primaryTypeName)
    (hresource : key ≠ resourceTypeName) :
    m.read key = m.readOr key (pure none) := by
  unfold read
  rw [if_neg hne, if_neg (by rw [hpath]; decide), if_neg hprimary,
    if_neg fun h => hresource h.1]

/-- The value under a plain key is that of its slot. -/
theorem get?_of_fullyRead (hs : s.cache.fullyRead = true) {key : String}
    (hk : IsPlain key) :
    m.get? key s =
      (.ok ((s.cache.slots.get? (plainKey key)).map (·.value)), s) := by
  unfold get?
  rw [run_bind, read_of_fullyRead hs hk.1 hk.2]
  rfl

-- ============================================================== writes

/-- A change that was committed has been made by the node, and nothing
else has happened. -/
theorem of_commit {key : String} {v : Value} {change : Change}
    {t : MapState σ} (h : m.commit key v change s = (.ok (), t)) :
    ∃ w, change.apply m.node s.world = (.ok (), w) ∧
      t = { s with world := w } := by
  unfold commit at h
  rcases hrun : change.apply m.node s.world with ⟨e | _, w⟩
  · have hattempt : MapM.attempt (change.apply m.node) s =
        (.ok (.error e), { s with world := w }) := by
      rw [MapM.run_attempt, hrun]
    rw [run_bind_of_ok hattempt] at h
    cases h
  · have hattempt : MapM.attempt (change.apply m.node) s =
        (.ok (.ok ()), { s with world := w }) := by
      rw [MapM.run_attempt, hrun]
    rw [run_bind_of_ok hattempt] at h
    cases h
    exact ⟨w, rfl, rfl⟩

/-- What a put does to a map that has read everything: it fails while it
is prepared, or when the node refuses the change, and then ends where
that ended; or it sets the slot of the key behind a change that the node
has made. -/
theorem put_cases (hw : m.writable = true) (hs : s.cache.fullyRead = true)
    {key : String} (hk : IsPlain key) (v : Value) :
    (∃ e t, m.prepare (plainKey key) v s = (.error e, t) ∧
      m.put key v s = (.error e, t)) ∨
    (∃ entry change u e t,
      m.prepare (plainKey key) v s = (.ok (entry, change), u) ∧
      m.commit (plainKey key) v change u = (.error e, t) ∧
      m.put key v s = (.error e, t)) ∨
    (∃ entry change u t,
      m.prepare (plainKey key) v s = (.ok (entry, change), u) ∧
      m.commit (plainKey key) v change u = (.ok (), t) ∧
      m.put key v s =
        (.ok ((s.cache.slots.get? (plainKey key)).map (·.value)),
          { t with cache := ⟨s.cache.slots.set (plainKey key) ⟨entry, v⟩,
            true⟩ })) := by
  have hplain : IsPlain (plainKey key) := by
    rw [IsPlain, plainKey_plainKey hk]
    exact hk
  have hget := get?_of_fullyRead (m := m) hs hplain
  rw [plainKey_plainKey hk] at hget
  -- The full read is over, and the former value comes from the cache.
  have hrun : m.put key v s = (do
      let prepared ← m.prepare (plainKey key) v
      m.commit (plainKey key) v prepared.2
      MapM.modifySlots (·.set (plainKey key) ⟨prepared.1, v⟩)
      pure ((s.cache.slots.get? (plainKey key)).map (·.value)) :
        MapM σ (Option Value)) s := by
    simp only [put, hw, hk.2, Bool.not_true, Bool.false_eq_true, if_false]
    rw [run_bind_of_ok (readFully_of_fullyRead hs), run_bind_of_ok hget]
  rw [hrun]
  rcases hprep : m.prepare (plainKey key) v s with ⟨e | ⟨entry, change⟩, u⟩
  · exact .inl ⟨e, u, rfl, run_bind_of_error hprep _⟩
  rw [run_bind_of_ok hprep]
  dsimp only
  rcases hcommit : m.commit (plainKey key) v change u with ⟨e | _, t⟩
  · exact .inr (.inl ⟨entry, change, u, e, t, rfl, hcommit,
      run_bind_of_error hcommit _⟩)
  · refine .inr (.inr ⟨entry, change, u, t, rfl, hcommit, ?_⟩)
    have hcache : t.cache = s.cache := by
      have h₁ := m.keeps_cache_prepare (plainKey key) v s
      have h₂ := m.keeps_cache_commit (plainKey key) v change u
      rw [hprep] at h₁
      rw [hcommit] at h₂
      exact h₂.trans h₁
    rw [run_bind_of_ok hcommit, run_bind_of_ok (MapM.run_modifySlots ..),
      run_pure, hcache, hs]

/-- What a remove does to a map that has read everything: it fails where
the node fails, or drops the slot of the key behind the node. -/
theorem remove_cases (hw : m.writable = true)
    (hs : s.cache.fullyRead = true) (key : String) :
    (∃ e t, m.withdraw (plainKey key) s = (.error e, t) ∧
      m.remove key s = (.error e, t)) ∨
    (∃ t, m.withdraw (plainKey key) s = (.ok (), t) ∧
      m.remove key s =
        (.ok ((s.cache.slots.get? (plainKey key)).map (·.value)),
          { t with
            cache := ⟨s.cache.slots.erase (plainKey key), true⟩ })) := by
  have hrun : m.remove key s = (do
      m.withdraw (plainKey key)
      let slots ← MapM.slots
      MapM.modifySlots (·.erase (plainKey key))
      pure ((slots.get? (plainKey key)).map (·.value)) :
        MapM σ (Option Value)) s := by
    simp only [remove, hw, Bool.not_true, Bool.false_eq_true, if_false]
    rw [run_bind_of_ok (readFully_of_fullyRead hs)]
  rw [hrun]
  rcases hgone : m.withdraw (plainKey key) s with ⟨e | _, t⟩
  · exact .inl ⟨e, t, rfl, run_bind_of_error hgone _⟩
  · refine .inr ⟨t, rfl, ?_⟩
    have hcache : t.cache = s.cache := by
      have h := m.keeps_cache_withdraw (plainKey key) s
      rwa [hgone] at h
    rw [run_bind_of_ok hgone, run_bind_of_ok (MapM.run_slots t),
      run_bind_of_ok (MapM.run_modifySlots ..), run_pure, hcache, hs]

-- ============================================= before the full read

/-- The first write reads everything, and then goes on as on a map that
has; if that fails, so does the write. -/
theorem put_of_readFully (hw : m.writable = true) {key : String}
    (hk : IsPlain key) (v : Value) :
    m.put key v s = match m.readFully s with
      | (.ok _, t) => m.put key v t
      | (.error e, t) => (.error e, t) := by
  rcases hread : m.readFully s with ⟨e | _, t⟩
  · simp only [put, hw, hk.2, Bool.not_true, Bool.false_eq_true, if_false]
    rw [run_bind_of_error hread]
  · have ht := readFully_of_fullyRead (m := m) (fullyRead_of_readFully hread)
    simp only [put, hw, hk.2, Bool.not_true, Bool.false_eq_true, if_false]
    rw [run_bind_of_ok hread, run_bind_of_ok ht]

theorem remove_of_readFully (hw : m.writable = true) (key : String) :
    m.remove key s = match m.readFully s with
      | (.ok _, t) => m.remove key t
      | (.error e, t) => (.error e, t) := by
  rcases hread : m.readFully s with ⟨e | _, t⟩
  · simp only [remove, hw, Bool.not_true, Bool.false_eq_true, if_false]
    rw [run_bind_of_error hread]
  · have ht := readFully_of_fullyRead (m := m) (fullyRead_of_readFully hread)
    simp only [remove, hw, Bool.not_true, Bool.false_eq_true, if_false]
    rw [run_bind_of_ok hread, run_bind_of_ok ht]

end ContentProperties.PropertyMap
