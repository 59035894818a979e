/-
What reading does to the cache, in one walk. A read makes slots of three
kinds: of a property that the node shows, of the primary type as the type
registry has it, and of the value of a slot that stands in for the
resource type. Each of them is set under a key that has none yet, and
nothing else happens to the cache until a full read is noted. So whatever
is true of a cache and takes in such slots (`TakesIn`) is true of it after
any read, however that ends, with a node that changes and fails as it
likes.

# Method

`Sustains I Q` says of a call that `I` holds of the cache after it if it
did before, and that what the call yields satisfies `Q`. It is closed
under sequencing, so it is read off the definitions line by line, and `Q`
hands on from one line to the next where a slot or a property has come
from. All that is ever said of a cache that was read into is an instance:
that it has grown, or that its slots are as they should be.
-/
import ContentProperties.Proofs.Dict
import ContentProperties.Proofs.Map.Steps

namespace ContentProperties

variable {σ α β : Type}

namespace PropertyMap

-- ============================================================== calls

/-- However the call ends, the cache still satisfies the one condition, and
what it yields satisfies the other. -/
def Sustains (I : Cache σ → Prop) (Q : α → Prop) (op : MapM σ α) : Prop :=
  ∀ s, I s.cache → I (op s).2.cache ∧ ∀ a, (op s).1 = .ok a → Q a

section Calls

variable {I : Cache σ → Prop} {Q Q' : α → Prop} {R : β → Prop}

/-- Less may be said of what a call yields than is known. -/
theorem Sustains.mono {op : MapM σ α} (h : Sustains I Q op)
    (hQ : ∀ a, Q a → Q' a) : Sustains I Q' op :=
  fun s hs => ⟨(h s hs).1, fun a ha => hQ a ((h s hs).2 a ha)⟩

/-- Nothing is lost by a call that leaves the cache alone. -/
theorem sustains_of_keeps {op : MapM σ α} (h : Keeps MapState.cache op) :
    Sustains I (fun a => ∃ s t, op s = (.ok a, t)) op := by
  intro s hs
  refine ⟨?_, fun a ha => ⟨s, (op s).2, Prod.ext ha rfl⟩⟩
  rw [h s]
  exact hs

/-- A call of the node is no call of the cache; of what it yields is known
that the node has yielded it. -/
theorem sustains_ofAct (act : Act σ α) :
    Sustains I (fun a => ∃ w w', act w = (.ok a, w')) (MapM.ofAct act) := by
  refine (sustains_of_keeps (MapM.keeps_ofAct fun _ => rfl)).mono ?_
  rintro a ⟨s, t, hrun⟩
  obtain ⟨w, hact, -⟩ := MapM.ok_of_run_ofAct hrun
  exact ⟨s.world, w, hact⟩

theorem sustains_pure {a : α} (h : Q a) :
    Sustains I Q (pure a : MapM σ α) := by
  intro s hs
  refine ⟨hs, fun b hb => ?_⟩
  cases hb
  exact h

/-- A failure yields nothing. -/
theorem sustains_throw (e : MapError) :
    Sustains I Q (throw e : MapM σ α) :=
  fun _ hs => ⟨hs, nofun⟩

/-- A call that is refused before it begins. -/
theorem sustains_refused {rest : β → MapM σ α} (e : MapError) :
    Sustains I Q (throw e >>= rest) :=
  fun _ hs => ⟨hs, nofun⟩

/-- What the first call yields is known to the second, and the cache is
handed on with what is known of it. -/
theorem sustains_bind {op : MapM σ α} {rest : α → MapM σ β}
    (h : Sustains I Q op) (hrest : ∀ a, Q a → Sustains I R (rest a)) :
    Sustains I R (op >>= rest) := by
  intro s hs
  obtain ⟨ht, hyields⟩ := h s hs
  rw [run_bind]
  rcases hop : op s with ⟨e | a, t⟩ <;> rw [hop] at ht hyields
  · exact ⟨ht, nofun⟩
  · exact hrest a (hyields a rfl) t ht

theorem sustains_map {op : MapM σ α} (h : Sustains I Q op) {f : α → β}
    (hf : ∀ a, Q a → R (f a)) : Sustains I R (f <$> op) := by
  rw [← bind_pure_comp]
  exact sustains_bind h fun a ha => sustains_pure (hf a ha)

/-- How a failure is worded makes no difference. -/
theorem sustains_mapError {op : MapM σ α} (h : Sustains I Q op)
    (f : MapError → MapError) : Sustains I Q (MapM.mapError f op) := by
  intro s hs
  have ht := h s hs
  unfold MapM.mapError
  rcases hop : op s with ⟨e | a, t⟩ <;> rw [hop] at ht
  · exact ⟨ht.1, nofun⟩
  · exact ht

/-- A failure taken as a value is none of the call. -/
theorem sustains_result {op : MapM σ α} (h : Sustains I Q op) :
    Sustains I (fun _ => True) (MapM.result op) :=
  fun s hs => ⟨(h s hs).1, fun _ _ => trivial⟩

/-- Slots that are looked at are those of a cache that satisfies the
condition. -/
theorem sustains_slots :
    Sustains I (fun d => ∃ c, I c ∧ c.slots = d)
      (MapM.slots : MapM σ (Dict (Slot σ))) := by
  intro s hs
  refine ⟨hs, fun d hd => ?_⟩
  cases hd
  exact ⟨s.cache, hs, rfl⟩

end Calls

-- ============================================================ caching

/-- Makes a slot and sets it under a key, unless there is one. -/
def addSlot (key : String) (make : MapM σ (Slot σ)) :
    MapM σ (Slot σ) := do
  match (← MapM.slots).get? key with
  | some slot => pure slot
  | none =>
      let slot ← make
      MapM.modifySlots (·.set key slot)
      pure slot

/-- The slot was there; or it could not be made; or it was made, and has
been added. -/
theorem addSlot_cases (key : String) {make : MapM σ (Slot σ)}
    (hmake : Keeps MapState.cache make) (s : MapState σ) :
    (∃ slot, s.cache.slots.get? key = some slot ∧
      addSlot key make s = (.ok slot, s)) ∨
    (∃ e t, t.cache = s.cache ∧ addSlot key make s = (.error e, t)) ∨
    ∃ slot t, make s = (.ok slot, t) ∧
      addSlot key make s = (.ok slot, { t with
        cache := ⟨s.cache.slots.addNew key slot, s.cache.fullyRead⟩ }) := by
  unfold addSlot
  rw [run_bind_of_ok (MapM.run_slots s)]
  cases hslot : s.cache.slots.get? key with
  | some slot => exact .inl ⟨slot, rfl, rfl⟩
  | none =>
    have hs := hmake s
    dsimp only
    rw [run_bind]
    rcases hmade : make s with ⟨e | slot, t⟩ <;> rw [hmade] at hs <;>
      dsimp only at hs ⊢
    · exact .inr (.inl ⟨e, t, hs, rfl⟩)
    · refine .inr (.inr ⟨slot, t, rfl, ?_⟩)
      rw [run_bind_of_ok (MapM.run_modifySlots _ t), run_pure, hs,
        ← Dict.addNew_of_none hslot]

end PropertyMap

/-- The property is one that the node shows, alone or among others. -/
def Node.Shown (n : Node σ) (p : Property σ) : Prop :=
  (∃ name w w', n.property? name w = (.ok (some p), w')) ∨
    ∃ w ps w', n.properties w = (.ok ps, w') ∧ p ∈ ps

namespace PropertyMap

/-- Every slot that reading makes satisfies the condition. -/
structure Makes (m : PropertyMap σ) (P : String → Slot σ → Prop) :
    Prop where
  property : ∀ p, m.node.Shown p → ∀ w slot w',
    readSlot p w = (.ok slot, w') →
      P (decodeName m.provider.options.legacyPathEncoding p.name) slot
  primaryType : ∀ name w entry w',
    Entry.ofValue m.node.session (.string name) w = (.ok entry, w') →
      P primaryTypeName ⟨entry, .string name⟩
  resourceType : ∀ key slot, P key slot → ∀ w entry w',
    Entry.ofValue m.node.session slot.value w = (.ok entry, w') →
      P resourceTypeName ⟨entry, slot.value⟩

/-- A cache of which the one condition holds has only slots that satisfy
the other, and takes in any such slot. -/
structure TakesIn (I : Cache σ → Prop) (P : String → Slot σ → Prop) :
    Prop where
  cached : ∀ c key slot, I c → c.slots.get? key = some slot → P key slot
  added : ∀ c key slot, I c → P key slot →
    I ⟨c.slots.addNew key slot, c.fullyRead⟩

/-- What is yielded, if it is a slot, satisfies the condition with some
key. -/
def Satisfied (P : String → Slot σ → Prop) (slot? : Option (Slot σ)) :
    Prop :=
  ∀ slot ∈ slot?, ∃ key, P key slot

theorem satisfied_none {P : String → Slot σ → Prop} : Satisfied P none :=
  fun _ h => nomatch h

theorem satisfied_some {P : String → Slot σ → Prop} {key : String}
    {slot : Slot σ} (h : P key slot) : Satisfied P (some slot) := by
  intro found hfound
  cases hfound
  exact ⟨key, h⟩

section Reading

variable {m : PropertyMap σ} {I : Cache σ → Prop}
variable {P : String → Slot σ → Prop}
variable (hI : TakesIn I P) (hm : m.Makes P)

include hI

/-- A slot that is made and set where there was none. -/
theorem sustains_addSlot (key : String) {make : MapM σ (Slot σ)}
    (hmake : Keeps MapState.cache make)
    (hmade : ∀ s slot t, make s = (.ok slot, t) → P key slot) :
    Sustains I (P key) (addSlot key make) := by
  intro s hs
  rcases addSlot_cases key hmake s with
    ⟨slot, hcached, hrun⟩ | ⟨e, t, ht, hrun⟩ | ⟨slot, t, hslot, hrun⟩ <;>
    rw [hrun]
  · refine ⟨hs, fun found hfound => ?_⟩
    cases hfound
    exact hI.cached s.cache key slot hs hcached
  · refine ⟨?_, nofun⟩
    rw [ht]
    exact hs
  · have hP := hmade s slot t hslot
    refine ⟨hI.added s.cache key slot hs hP, fun found hfound => ?_⟩
    cases hfound
    exact hP

/-- A value that stands in is cached with an entry made for it, if its key
is free. -/
theorem sustains_cacheValue {key : String} {v : Value}
    (hv : ∀ w entry w', Entry.ofValue m.node.session v w = (.ok entry, w') →
      P key ⟨entry, v⟩) :
    Sustains I (P key) (m.cacheValue key v) := by
  have heq : m.cacheValue key v = addSlot key ((fun entry => ⟨entry, v⟩) <$>
      MapM.ofEntry (Entry.ofValue m.node.session v)) := by
    simp only [addSlot, map_eq_pure_bind, bind_assoc, pure_bind]
    rfl
  rw [heq]
  refine sustains_addSlot hI key
    (keeps_map (MapM.keeps_ofEntry fun _ => rfl) _) fun s slot t hrun => ?_
  rw [run_map] at hrun
  split at hrun
  · next entry u hentry =>
    obtain ⟨w, hvalue, -⟩ := MapM.ok_of_run_ofEntry hentry
    cases hrun
    exact hv s.world entry w hvalue
  · cases hrun

include hm

omit hI in
/-- A slot read of a property that the node shows is as it should be. -/
theorem of_readSlot_shown {p : Property σ} (hp : m.node.Shown p)
    {s t : MapState σ} {slot : Slot σ}
    (h : MapM.ofAct (readSlot p) s = (.ok slot, t)) :
    P (decodeName m.provider.options.legacyPathEncoding p.name) slot := by
  obtain ⟨w, hread, -⟩ := MapM.ok_of_run_ofAct h
  exact hm.property p hp s.world slot w hread

/-- A property is cached as a slot that is made and set. -/
theorem sustains_cacheProperty {p : Property σ} (hp : m.node.Shown p) :
    Sustains I (P (decodeName m.provider.options.legacyPathEncoding p.name))
      (m.cacheProperty p) :=
  sustains_addSlot hI _ (MapM.keeps_ofAct fun _ => rfl)
    fun _ _ _ hrun => of_readSlot_shown hm hp hrun

/-- The name that the type registry has comes under the key of the primary
type. -/
theorem sustains_cachePrimaryType :
    Sustains I (P primaryTypeName) m.cachePrimaryType :=
  sustains_bind (sustains_ofAct _) fun name _ =>
    sustains_cacheValue hI (hm.primaryType name)

/-- The resource type is taken from a slot that is as it should be. -/
theorem sustains_cacheResourceType {key : String} {slot : Slot σ}
    (hslot : P key slot) :
    Sustains I (P resourceTypeName)
      (m.cacheValue resourceTypeName slot.value) :=
  sustains_cacheValue hI (hm.resourceType key slot hslot)

-- ============================================================ reading

omit hI in
/-- What is read at one name is yielded, and not cached. -/
theorem sustains_readAt (name : String)
    {otherwise : MapM σ (Option (Slot σ))}
    (h : Sustains I (Satisfied P) otherwise) :
    Sustains I (Satisfied P) (m.readAt name otherwise) := by
  refine sustains_bind (sustains_ofAct _) fun p? hfound => ?_
  cases p? with
  | none => exact h
  | some p =>
    obtain ⟨w, w', hfound⟩ := hfound
    refine sustains_map
      (sustains_of_keeps (MapM.keeps_ofAct fun _ => rfl)) ?_
    rintro slot ⟨s, t, hrun⟩
    exact satisfied_some
      (of_readSlot_shown hm (.inl ⟨name, w, w', hfound⟩) hrun)

omit hI in
/-- A path yields a slot of a property that some node shows, past the
cache. -/
theorem sustains_readPath (path : String) :
    Sustains I (Satisfied P) (m.readPath path) := by
  have hlast : ∀ name,
      Sustains I (Satisfied P) (m.readAt name (pure none)) :=
    fun name => sustains_readAt hm name (sustains_pure satisfied_none)
  unfold readPath
  dsimp only
  split
  · refine sustains_readAt hm _ ?_
    split
    · exact sustains_pure satisfied_none
    · exact hlast _
  · exact hlast _

/-- A slot that is found was cached before, or is made of a property that
the node shows. -/
theorem sustains_readOr (key : String)
    {otherwise : MapM σ (Option (Slot σ))}
    (h : Sustains I (Satisfied P) otherwise) :
    Sustains I (Satisfied P) (m.readOr key otherwise) := by
  refine sustains_bind sustains_slots fun slots ⟨c, hc, hslots⟩ => ?_
  cases hcached : slots.get? key with
  | some slot =>
    rw [← hslots] at hcached
    exact sustains_pure (satisfied_some (hI.cached c key slot hc hcached))
  | none =>
    refine sustains_bind (sustains_of_keeps fun _ => rfl)
      fun fullyRead _ => ?_
    cases fullyRead with
    | true => exact sustains_pure satisfied_none
    | false =>
      refine sustains_bind
        (sustains_of_keeps (keeps_cache_escapeKey m key)) fun name _ =>
          sustains_bind (sustains_ofAct _) fun p? hfound => ?_
      cases p? with
      | none => exact h
      | some p =>
        obtain ⟨w, w', hfound⟩ := hfound
        exact sustains_map
          (sustains_cacheProperty hI hm (.inl ⟨name, w, w', hfound⟩))
          fun _ hslot => satisfied_some hslot

/-- The primary type comes from the cache, a property or the type
registry. -/
theorem sustains_readPrimaryType :
    Sustains I (Satisfied P) m.readPrimaryType :=
  sustains_readOr hI hm _ (sustains_map (sustains_cachePrimaryType hI hm)
    fun _ hslot => satisfied_some hslot)

/-- The resource type comes from the cache, a property or the slot of the
primary type. -/
theorem sustains_readResourceType :
    Sustains I (Satisfied P) m.readResourceType := by
  refine sustains_readOr hI hm _
    (sustains_bind (sustains_readPrimaryType hI hm) fun primary? hfound => ?_)
  cases primary? with
  | none => exact sustains_pure satisfied_none
  | some primary =>
    obtain ⟨key, hprimary⟩ := hfound primary rfl
    exact sustains_map (sustains_cacheResourceType hI hm hprimary)
      fun _ hslot => satisfied_some hslot

/-- Reading any key. -/
theorem sustains_read (key : String) :
    Sustains I (Satisfied P) (m.read key) := by
  unfold read
  split
  · exact sustains_pure satisfied_none
  split
  · exact sustains_readPath hm key
  split
  · exact sustains_readPrimaryType hI hm
  split
  · exact sustains_readResourceType hI hm
  · exact sustains_readOr hI hm key (sustains_pure satisfied_none)

-- ======================================================== reading all

/-- Properties that were enumerated are shown by the node. -/
theorem sustains_cacheAll {ps : List (Property σ)}
    (hps : ∀ p ∈ ps, m.node.Shown p) :
    Sustains I (fun _ => True) (m.cacheAll ps) := by
  induction ps with
  | nil => exact sustains_pure trivial
  | cons p rest ih =>
    obtain ⟨hp, hrest⟩ := List.forall_mem_cons.1 hps
    exact sustains_bind (sustains_map (sustains_cacheProperty hI hm hp)
      fun _ _ => trivial) fun _ (_ : True) => ih hrest

/-- Types are added last, and the resource type is taken from what is cached
by then. -/
theorem sustains_synthesizeTypes :
    Sustains I (fun _ => True) m.synthesizeTypes := by
  have hprimary : Sustains I (fun _ => True) m.synthesizePrimaryType := by
    refine sustains_bind sustains_slots fun slots _ => ?_
    split
    · exact sustains_pure trivial
    · exact sustains_map (sustains_cachePrimaryType hI hm)
        fun _ _ => trivial
  have hresource : Sustains I (fun _ => True) m.synthesizeResourceType := by
    refine sustains_bind sustains_slots fun slots ⟨c, hc, hslots⟩ => ?_
    split
    · exact sustains_pure trivial
    · split
      · next primary hcached =>
        rw [← hslots] at hcached
        exact sustains_map (sustains_cacheResourceType hI hm
          (hI.cached c _ primary hc hcached)) fun _ _ => trivial
      · exact sustains_pure trivial
  refine sustains_bind hprimary fun _ _ => ?_
  split
  · exact hresource
  · exact sustains_pure trivial

theorem sustains_cacheNode :
    Sustains I (fun _ => True) m.cacheNode :=
  sustains_bind (sustains_ofAct _) fun ps ⟨w, w', hlist⟩ =>
    sustains_bind (sustains_cacheAll hI hm fun _ hp =>
      .inr ⟨w, ps, w', hlist, hp⟩) fun _ _ => sustains_synthesizeTypes hI hm

/-- Reading all properties, if it does no harm to note that. -/
theorem sustains_readFully (hnoted : ∀ c, I c → I ⟨c.slots, true⟩) :
    Sustains I (fun _ => True) m.readFully := by
  refine sustains_bind (sustains_of_keeps fun _ => rfl)
    fun fullyRead _ => ?_
  split
  · exact sustains_pure trivial
  · exact sustains_bind (sustains_of_keeps fun _ => rfl) fun path _ =>
      sustains_bind (sustains_mapError (sustains_cacheNode hI hm) _)
        fun _ _ => fun s hs => ⟨hnoted s.cache hs, fun _ _ => trivial⟩

end Reading

end PropertyMap

end ContentProperties
