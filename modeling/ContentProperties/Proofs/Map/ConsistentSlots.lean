/-
Slots are consistent: the value that a map keeps beside an entry is the
one that the entry itself yields, and the entry counts as any number of
values exactly if that is an array. A slot comes from a property, from the
type registry or from a writer, and it is used in two ways, by its value
and by its entry, so this is what makes a plain read and a conversion
start from the same.

# Method

The entry of a binary keeps no value, and asks its property each time it
is needed. What carries the statement there is that the properties of a
node in memory have their values themselves: a node that is written to
shows another property, and does not change the one that is held
(`StoredProperty.steady_of_value`). From there consistency is a condition
that every slot satisfies that is made (`makes_consistent`), and the run
of a map keeps it (`Reached.slotsSatisfy`).
-/
import ContentProperties.Proofs.Conversion.OwnType
import ContentProperties.Proofs.Map.CachedTypes
import ContentProperties.Proofs.Map.Views

namespace ContentProperties

variable {σ : Type} {session : Session σ} {provider : Provider}

-- ========================================================= conversions

namespace Entry

/-- Without a preference, the items of an array stay as they are. -/
theorem run_convertItems_unknown (e : Entry σ) (vs : List Value)
    (place : Nat) (w : World σ) :
    (convertItems session provider e .unknown place vs).run w =
      (.ok (some (vs.map .value)), w) := by
  induction vs generalizing place with
  | nil => rfl
  | cons v rest ih => exact run_convertItems_cons rfl (ih (place + 1))

end Entry

-- =============================================================== slots

/-- The entry yields the value of the slot whenever it is asked, and counts
as any number of values exactly if that is an array. -/
structure Slot.Consistent (slot : Slot σ) : Prop where
  value : ∀ w, slot.entry.value w = (.ok slot.value, w)
  isArray : slot.entry.isArray = slot.value.isArray

namespace Slot.Consistent

variable {slot : Slot σ} (h : slot.Consistent)

include h

/-- A conversion of the entry starts from the value of the slot. -/
theorem convert_eq (target : ValueType) :
    slot.entry.convert session provider target =
      (Entry.attemptOf session provider slot.entry slot.value target).run := by
  funext w
  exact Entry.run_convert_of_value (h.value w)

/-- As an array of anything, an array is all of its items in order. -/
theorem convert_array_unknown {items : List Value}
    (hitems : slot.value = .array items) (w : World σ) :
    slot.entry.convert session provider (.array .unknown) w =
      (.ok (some (.array (items.map .value))), w) := by
  have harray : slot.entry.isArray = true := by
    rw [h.isArray, hitems]
    rfl
  have hvalue := h.value w
  rw [hitems] at hvalue
  exact Entry.run_convert_items harray hvalue
    (Entry.run_convertItems_unknown slot.entry items 0 w)

end Slot.Consistent

/-- The slot of a value in the hands of a writer. -/
theorem Slot.consistent_of_ofValue {v : Value} {entry : Entry σ}
    {w w' : World σ} (h : Entry.ofValue session v w = (.ok entry, w')) :
    Slot.Consistent ⟨entry, v⟩ := by
  obtain ⟨rfl, -⟩ := Entry.of_ofValue h
  exact ⟨fun _ => rfl, rfl⟩

namespace PropertyMap

/-- A slot could only be made of a property whose value could be had. -/
theorem exists_value_of_readSlot {p : Property σ} {slot : Slot σ}
    {w w' : World σ} (h : readSlot p w = (.ok slot, w')) :
    ∃ v u u', p.value u = (.ok v, u') := by
  obtain ⟨entry, u, hentry, hslot⟩ := ok_of_run_bind h
  obtain ⟨v, u', hvalue, -⟩ := ok_of_run_bind hslot
  unfold Entry.ofProperty at hentry
  by_cases htype : p.type = .binary
  · rw [if_pos htype] at hentry
    cases hentry
    exact ⟨v, _, u', hvalue⟩
  · rw [if_neg htype] at hentry
    obtain ⟨x, u'', hx, -⟩ := ok_of_run_bind hentry
    exact ⟨x, _, u'', hx⟩

end PropertyMap

namespace Memory

open PropertyMap

/-- A property in memory that has a value has it for good, and it is an
array exactly if the property has any number of values. -/
theorem StoredProperty.steady_of_value {p : StoredProperty} {v : Value}
    {w w' : World σ} (h : p.toProperty.value w = (.ok v, w')) :
    (∀ u : World σ, p.toProperty.value u = (.ok v, u)) ∧
      p.multiple = v.isArray := by
  unfold StoredProperty.toProperty at h ⊢
  cases hmultiple : p.multiple with
  | true =>
    simp only [hmultiple, if_true] at h ⊢
    cases h
    exact ⟨fun _ => rfl, rfl⟩
  | false =>
    simp only [hmultiple, Bool.false_eq_true, if_false, first] at h ⊢
    cases hvalues : p.values with
    | nil =>
      rw [hvalues] at h
      cases h
    | cons stored rest =>
      rw [hvalues] at h
      cases h
      refine ⟨fun _ => rfl, ?_⟩
      cases stored <;> rfl

/-- The slot of a property of a node in memory. -/
theorem consistent_of_readSlot {p : StoredProperty} {slot : Slot Repository}
    {w w' : World Repository}
    (h : readSlot p.toProperty w = (.ok slot, w')) : slot.Consistent := by
  obtain ⟨v, u, u', hu⟩ := exists_value_of_readSlot h
  obtain ⟨hsteady, harray⟩ := StoredProperty.steady_of_value hu
  obtain ⟨entry, hentry, hmultiple, hvalue, -⟩ :=
    Entry.exists_ofProperty hsteady
  have hread : readSlot p.toProperty w = (.ok ⟨entry, v⟩, w) := by
    unfold readSlot
    rw [run_bind_of_ok (hentry w), run_bind_of_ok (hvalue w)]
    rfl
  rw [hread] at h
  cases h
  exact ⟨hvalue, hmultiple.trans harray⟩

/-- Reading a node in memory makes consistent slots only. -/
theorem makes_consistent {m : PropertyMap Repository}
    (hm : ShowsStored m.node) : m.Makes fun _ slot => slot.Consistent where
  property := by
    intro p hp w slot w' hread
    obtain ⟨q, rfl⟩ := hm.exists_stored hp
    exact consistent_of_readSlot hread
  primaryType := fun _ _ _ _ h => Slot.consistent_of_ofValue h
  resourceType := fun _ _ _ _ _ _ h => Slot.consistent_of_ofValue h

-- ============================================================== states

/-- The slots of a map over a node in memory stay consistent, whatever the
map is asked and told and whatever happens to its node meanwhile. What is
cached under a key that is no path is what a read finds, and nothing is
touched by that. Of every slot that a read finds, on a path too, the value
is what the plain read yields and what every conversion starts from; and
an array, asked for as an array of anything, is all of its items in
order. -/
theorem cached_slots_stay_consistent (c : Site) {s : MapState Repository}
    (h : c.map.Reached s) :
    (∀ key slot, s.cache.slots.get? key = some slot →
      slot.Consistent ∧ (key ≠ "" → isPath key = false →
        c.map.read (plainKey key) s = (.ok (some slot), s))) ∧
    ∀ key slot t, c.map.read (plainKey key) s = (.ok (some slot), t) →
      slot.Consistent ∧
      c.map.get? key s = (.ok (some slot.value), t) ∧
      (∀ target, target ≠ .unknown → c.map.getAs? key target s =
        MapM.ofConversion (Entry.attemptOf c.map.node.session c.provider
          slot.entry slot.value target).run t) ∧
      ∀ items, slot.value = .array items →
        c.map.getAs? key (.array .unknown) s =
          (.ok (some (.array (items.map .value))), t) := by
  have hmakes : c.map.Makes fun _ slot => slot.Consistent :=
    makes_consistent (showsStored_node c.id c.sid)
  have hslots := h.slotsSatisfy hmakes fun _ _ _ _ _ =>
    Slot.consistent_of_ofValue
  constructor
  · intro key slot hcached
    refine ⟨hslots key slot hcached, fun hne hpath => ?_⟩
    rw [plainKey_of_not_isPath hpath]
    exact read_of_cached hne hpath hcached
  · intro key slot t hread
    obtain ⟨-, hyields⟩ :=
      sustains_read takesIn_allCached hmakes (plainKey key) s hslots
    rw [hread] at hyields
    obtain ⟨_, hslot⟩ := hyields _ rfl slot rfl
    have hget : ∀ target, target ≠ .unknown →
        c.map.getAs? key target s = MapM.ofConversion
          (slot.entry.convert c.map.node.session c.provider target) t := by
      intro target htarget
      unfold getAs?
      rw [if_neg htarget, run_bind_of_ok hread]
      rfl
    refine ⟨hslot, ?_, ?_, ?_⟩
    · rw [get?, run_bind_of_ok hread]
      rfl
    · intro target htarget
      rw [hget target htarget, hslot.convert_eq]
    · intro items hitems
      rw [hget _ (by decide), MapM.run_ofConversion,
        hslot.convert_array_unknown hitems]

/-- An array is put, and then the node is set back to what it was. The map
still finds the array, and all of its items. -/
theorem put_array_is_found_whole :
    ∃ s t, Site.sample.map.put "c" (.array [.long 1, .string "x"])
        Site.sampleState = (.ok none, s) ∧
      t = ⟨s.cache, s.prefixes, Site.sampleState.world⟩ ∧
      Site.sample.map.get? "c" t =
        (.ok (some (.array [.long 1, .string "x"])), t) ∧
      Site.sample.map.getAs? "c" (.array .unknown) t =
        (.ok (some (.array [.value (.long 1), .value (.string "x")])), t) := by
  let v : Value := .array [.long 1, .string "x"]
  obtain ⟨s, hput, hcached⟩ : ∃ s,
      Site.sample.map.put "c" v Site.sampleState = (.ok none, s) ∧
      s.cache.slots.get? "c" = some ⟨⟨.pending v, true⟩, v⟩ :=
    ⟨_, rfl, rfl⟩
  have hstart : Site.sample.map.Reached Site.sampleState := .fresh none _
  have hwritten := hstart.answered (.put "c" v)
  rw [answer, hput] at hwritten
  obtain ⟨hslots, hreads⟩ := cached_slots_stay_consistent Site.sample
    (hwritten.meanwhile s.prefixes Site.sampleState.world)
  obtain ⟨-, hfound⟩ := hslots "c" _ hcached
  obtain ⟨-, hget, -, hitems⟩ :=
    hreads "c" _ _ (hfound (by decide) (by decide))
  exact ⟨s, _, hput, rfl, hget, hitems _ rfl⟩

end Memory

end ContentProperties
