/-
What is cached as the primary type before a full read is noted. Nothing
but reading comes before that, since a write reads everything first. So
under the key of the primary type there is either nothing, or a value as
a node shows it: that of a property, or the name that the type registry
has (`TypeWasRead`). The node behind the map may change and fail as it
likes, as long as what it shows are stored properties (`ShowsStored`).

That is a condition on slots, which only asks something of the one under
that key, so it holds after any read if it holds of every slot that
reading makes (`makes_typeAsShown`).
-/
import ContentProperties.Proofs.Map.CachedSlots
import ContentProperties.Proofs.Map.FullReads

namespace ContentProperties.Memory

open PropertyMap

-- ============================================================ the slot

theorem typeWasRead_empty : TypeWasRead Dict.empty :=
  fun _ h => nomatch h

variable {d : Dict (Slot Repository)}

/-- Only a slot under the key of the primary type needs to be of a type that
was read. -/
theorem TypeWasRead.addNew (hd : TypeWasRead d) {key : String}
    {slot : Slot Repository}
    (h : key = primaryTypeName →
      ∃ p : StoredProperty, slot.value = p.natural) :
    TypeWasRead (d.addNew key slot) := by
  intro found hfound
  rcases Dict.of_get?_addNew hfound with ⟨hkey, rfl⟩ | hfound
  · exact h hkey.symm
  · exact hd found hfound

/-- Properties that are added were read. -/
theorem TypeWasRead.addAll (hd : TypeWasRead d) (o : MapOptions)
    (ps : List StoredProperty) : TypeWasRead (addAll o d ps) := by
  induction ps generalizing d with
  | nil => exact hd
  | cons p rest ih => exact ih (hd.addNew fun _ => ⟨p, rfl⟩)

-- =============================================================== calls

/-- What the node shows are stored properties. -/
structure ShowsStored (n : Node Repository) : Prop where
  property? : ∀ name w p t, n.property? name w = (.ok (some p), t) →
    ∃ q : StoredProperty, p = q.toProperty
  properties : ∀ w ps t, n.properties w = (.ok ps, t) →
    ∃ qs : List StoredProperty, ps = qs.map StoredProperty.toProperty

/-- A node in memory shows what it has stored. -/
theorem showsStored_node (id sid : Nat) : ShowsStored (node id sid) := by
  refine ⟨fun name w p t hrun => ?_, fun w ps t hrun => ?_⟩
  · have h := run_property? id sid name w
    rw [hrun] at h
    obtain ⟨q, -, rfl⟩ := Option.map_eq_some_iff.1 (Except.ok.inj h).symm
    exact ⟨q, rfl⟩
  · have h := run_properties id sid w
    rw [hrun] at h
    split at h
    · cases h
    · exact ⟨_, Except.ok.inj h⟩

/-- Alone or in an enumeration, a shown property is a stored one. -/
theorem ShowsStored.exists_stored {n : Node Repository} (hn : ShowsStored n)
    {p : Property Repository} (hp : n.Shown p) :
    ∃ q : StoredProperty, p = q.toProperty := by
  rcases hp with ⟨name, w, w', hrun⟩ | ⟨w, ps, w', hrun, hp⟩
  · exact hn.property? name w p w' hrun
  · obtain ⟨qs, rfl⟩ := hn.properties w ps w' hrun
    obtain ⟨q, -, rfl⟩ := List.mem_map.1 hp
    exact ⟨q, rfl⟩

/-- However the call ends, the primary type has still been read. -/
def KeepsType {α : Type} (op : MapM Repository α) : Prop :=
  ∀ s, TypeWasRead s.cache.slots → TypeWasRead (op s).2.cache.slots

-- ============================================================= reading

/-- The slot, if it is that of the primary type, has a value as a node
shows it. -/
def TypeAsShown (key : String) (slot : Slot Repository) : Prop :=
  key = primaryTypeName → ∃ p : StoredProperty, slot.value = p.natural

theorem typeWasRead_iff {c : Cache Repository} :
    TypeWasRead c.slots ↔ AllCached TypeAsShown c := by
  constructor
  · rintro h key slot hslot rfl
    exact h slot hslot
  · intro h slot hslot
    exact h primaryTypeName slot hslot rfl

section Reading

variable {m : PropertyMap Repository} (hm : ShowsStored m.node)

include hm

/-- A read makes a slot under the key of the primary type of a property or
of the name in the type registry. -/
theorem makes_typeAsShown : m.Makes TypeAsShown where
  property := by
    intro p hp w slot w' hread _
    obtain ⟨q, rfl⟩ := hm.exists_stored hp
    obtain ⟨rfl, -⟩ := of_readSlot hread
    exact ⟨q, rfl⟩
  primaryType := fun name _ _ _ _ _ =>
    ⟨.single primaryTypeName .name (.string name), rfl⟩
  resourceType := fun _ _ _ _ _ _ _ h => absurd h (by decide)

/-- Reading any key leaves a primary type that was read. -/
theorem keepsType_read (key : String) : KeepsType (m.read key) := by
  intro s hs
  rw [typeWasRead_iff] at hs ⊢
  exact (sustains_read takesIn_allCached (makes_typeAsShown hm) key s hs).1

/-- A full read leaves a primary type that was read, also if it fails. -/
theorem keepsType_readFully : KeepsType m.readFully := by
  intro s hs
  rw [typeWasRead_iff] at hs ⊢
  exact (sustains_fullRead (makes_typeAsShown hm) s hs).1

end Reading

end ContentProperties.Memory
