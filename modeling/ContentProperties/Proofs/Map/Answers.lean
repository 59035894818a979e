/-
What is under a key of a node in memory, as a function that knows no
cache: the property of the key's storage name, or else a type under the
keys of types. Maps are compared with it.

A cache is `Faithful` when each of its slots holds the answer to its
key. Filling a faithful cache with all properties and the types keeps it
so (`Faithful.fill`) and leaves no answer out (`get?_fill`). The stored
names must be canonical, so that no key has two properties.
-/
import ContentProperties.Proofs.Conversion.Calm
import ContentProperties.Proofs.Map.Reading

namespace ContentProperties.Memory

open PropertyMap

-- ============================================================= answers

/-- The property that shows the primary type, stored or not. -/
def NodeState.primaryShown (n : NodeState) (known : List String) :
    StoredProperty :=
  (n.property? (storageName known primaryTypeName)).getD n.typeShown

/-- What is under a key of a node: the property of the storage name, or a
type under the keys of types. -/
def NodeState.answer? (n : NodeState) (o : MapOptions)
    (known : List String) (key : String) : Option StoredProperty :=
  match n.property? (storageName known key) with
  | some p => some p
  | none =>
      if key = primaryTypeName then some n.typeShown
      else if key = resourceTypeName ∧ o.synthesizeResourceType then
        some (n.primaryShown known)
      else none

/-- A well-formed node with canonical names only. -/
structure NodeState.Readable (n : NodeState) (o : MapOptions)
    (known : List String) : Prop where
  wellFormed : n.WellFormed
  canonical : ∀ p ∈ n.allProperties,
    Canonical o.legacyPathEncoding known p.name

/-- Every slot holds the answer to its key, and asking its entry changes
no repository. -/
structure Faithful (n : NodeState) (o : MapOptions) (known : List String)
    (d : Dict (Slot Repository)) : Prop where
  answers : ∀ key slot, d.get? key = some slot →
    ∃ p, n.answer? o known key = some p ∧ slot.value = p.natural
  calm : ∀ key slot, d.get? key = some slot →
    slot.entry.Calm Repository.content

section Filling

variable {n : NodeState} {o : MapOptions} {known : List String}
variable {d : Dict (Slot Repository)}

theorem NodeState.answer?_of_property? {key : String} {p : StoredProperty}
    (h : n.property? (storageName known key) = some p) :
    n.answer? o known key = some p := by
  simp [answer?, h]

theorem NodeState.answer?_primaryTypeName :
    n.answer? o known primaryTypeName = some (n.primaryShown known) := by
  unfold answer? primaryShown
  cases n.property? (storageName known primaryTypeName) with
  | none => simp
  | some p => rfl

theorem NodeState.answer?_resourceTypeName
    (hset : n.property? (storageName known resourceTypeName) = none)
    (hsyn : o.synthesizeResourceType = true) :
    n.answer? o known resourceTypeName = some (n.primaryShown known) := by
  have hne : resourceTypeName ≠ primaryTypeName := by decide
  simp [answer?, hset, hsyn, hne]

/-- A canonical property is the answer to its own key. -/
theorem NodeState.Readable.answer?_key (hn : n.Readable o known)
    {p : StoredProperty} (hp : p ∈ n.allProperties) :
    n.answer? o known (p.key o) = some p := by
  apply answer?_of_property?
  rw [StoredProperty.key, hn.canonical p hp]
  exact hn.wellFormed.mem_allProperties_iff.1 hp

/-- A property that is found under the storage name of a key is one of
the node's. -/
theorem NodeState.Readable.mem_of_property? (hn : n.Readable o known)
    {name : String} {p : StoredProperty} (h : n.property? name = some p) :
    p ∈ n.allProperties := by
  obtain ⟨hname, -⟩ := hn.wellFormed.of_property?_eq_some h
  rw [hn.wellFormed.mem_allProperties_iff, hname, h]

/-- It has the key that it was found under, if the key is that of its
storage name. -/
theorem NodeState.Readable.key_of_property? (hn : n.Readable o known)
    {key : String} {p : StoredProperty}
    (h : n.property? (storageName known key) = some p)
    (hk : RoundTrips o.legacyPathEncoding known key) : p.key o = key := by
  obtain ⟨hname, -⟩ := hn.wellFormed.of_property?_eq_some h
  rw [StoredProperty.key, hname, hk]

-- ======================================================= calm entries

theorem StoredProperty.calm_toProperty (p : StoredProperty) :
    Property.Calm Repository.content p.toProperty := by
  have hlength : ∀ v : StoredValue, Keeps contentOf v.length := by
    intro v
    unfold StoredValue.length
    split
    · split
      · exact keeps_pure _
      · refine keeps_bind (fun w => ?_) fun _ => keeps_pure _
        unfold Act.readAll
        split <;> rfl
    · exact keeps_pure _
  have hlengths : ∀ vs, Keeps contentOf (StoredProperty.lengthsOf vs) := by
    intro vs
    induction vs with
    | nil => exact keeps_pure _
    | cons v rest ih =>
      exact keeps_bind (hlength v) fun _ =>
        keeps_bind ih fun _ => keeps_pure _
  have hfirst : Keeps contentOf p.first := by
    unfold StoredProperty.first
    split
    · exact keeps_pure _
    · exact keeps_throw _
  unfold toProperty
  refine ⟨?_, ?_, ?_⟩ <;> dsimp only <;> split
  · exact keeps_pure _
  · exact keeps_bind hfirst fun _ => keeps_pure _
  · exact keeps_throw _
  · exact keeps_bind hfirst hlength
  · exact hlengths _
  · exact keeps_throw _

theorem StoredProperty.calm_slot (p : StoredProperty) :
    p.slot.entry.Calm Repository.content := by
  intro q hq
  cases hq
  exact p.calm_toProperty

theorem calm_session (sid : Nat) :
    (session sid).Calm Repository.content :=
  fun _ _ => rfl

-- ============================================================= filling

theorem faithful_empty : Faithful n o known Dict.empty := by
  constructor <;> intro key slot h <;> cases h

theorem Faithful.wereRead (hd : Faithful n o known d) : WereRead d := by
  intro key slot h
  obtain ⟨p, -, hp⟩ := hd.answers key slot h
  exact ⟨p, hp⟩

theorem Faithful.addNew (hd : Faithful n o known d) {key : String}
    {slot : Slot Repository} {p : StoredProperty}
    (hp : n.answer? o known key = some p) (hslot : slot.value = p.natural)
    (hcalm : slot.entry.Calm Repository.content) :
    Faithful n o known (d.addNew key slot) := by
  constructor
  · intro other found h
    rcases Dict.of_get?_addNew h with ⟨rfl, rfl⟩ | h
    · exact ⟨p, hp, hslot⟩
    · exact hd.answers other found h
  · intro other found h
    rcases Dict.of_get?_addNew h with ⟨-, rfl⟩ | h
    · exact hcalm
    · exact hd.calm other found h

theorem Faithful.addAll (hn : n.Readable o known)
    (hd : Faithful n o known d) {ps : List StoredProperty}
    (hps : ∀ p ∈ ps, p ∈ n.allProperties) :
    Faithful n o known (addAll o d ps) := by
  induction ps generalizing d with
  | nil => exact hd
  | cons p rest ih =>
    exact ih (hd.addNew (hn.answer?_key (hps p (List.mem_cons_self ..))) rfl
        p.calm_slot)
      fun q hq => hps q (List.mem_cons_of_mem _ hq)

/-- While properties are added, what is there stays, and of the properties
with another key the first has its slot there. -/
theorem get?_addAll (o : MapOptions) (d : Dict (Slot Repository))
    (ps : List StoredProperty) (key : String) :
    (addAll o d ps).get? key = (d.get? key).or
      ((ps.find? fun p => p.key o = key).map StoredProperty.slot) := by
  induction ps generalizing d with
  | nil => exact (Option.or_none).symm
  | cons p rest ih =>
    show (addAll o (d.addNew (p.key o) p.slot) rest).get? key = _
    rw [ih]
    by_cases hkey : p.key o = key
    · subst hkey
      rw [Dict.get?_addNew_self, List.find?_cons_of_pos (by simp)]
      cases d.get? (p.key o) <;> rfl
    · rw [Dict.get?_addNew_of_ne d (Ne.symm hkey),
        List.find?_cons_of_neg (by simpa using hkey)]

/-- Every property that is added has a slot under its key. -/
theorem isSome_get?_addAll {ps : List StoredProperty} {p : StoredProperty}
    (hp : p ∈ ps) : ((addAll o d ps).get? (p.key o)).isSome := by
  have hfound : (ps.find? fun q => q.key o = p.key o).isSome :=
    List.find?_isSome.2 ⟨p, hp, by simp⟩
  rw [get?_addAll, Option.isSome_or, Option.isSome_map, hfound, Bool.or_true]

/-- After all properties were added, the slot of a key that is the key of
its storage name is there if there is a property. -/
theorem NodeState.Readable.isSome_get?_addAll (hn : n.Readable o known)
    {key : String} {p : StoredProperty}
    (h : n.property? (storageName known key) = some p)
    (hk : RoundTrips o.legacyPathEncoding known key) :
    ((addAll o d n.allProperties).get? key).isSome := by
  rw [← hn.key_of_property? h hk]
  exact Memory.isSome_get?_addAll (hn.mem_of_property? h)

/-- Adding the primary type keeps slots faithful, if a property that shows
it has its slot already. -/
theorem Faithful.addPrimaryType (hd : Faithful n o known d)
    (hshown : ∀ p, n.property? (storageName known primaryTypeName) = some p →
      (d.get? primaryTypeName).isSome) :
    Faithful n o known
      (d.addNew primaryTypeName (pendingSlot n.typeShown.natural)) := by
  cases hget : d.get? primaryTypeName with
  | some slot =>
      rw [Dict.addNew_of_some hget]
      exact hd
  | none =>
      refine hd.addNew (p := n.typeShown) ?_ rfl (Entry.calm_pending _ _)
      rw [NodeState.answer?_primaryTypeName, NodeState.primaryShown]
      cases hp : n.property? (storageName known primaryTypeName) with
      | none => rfl
      | some p =>
          have hsome := hshown p hp
          rw [hget] at hsome
          cases hsome

/-- Filling the slots keeps them faithful. -/
theorem Faithful.fill (hn : n.Readable o known)
    (hd : Faithful n o known d) : Faithful n o known (fill o n d) := by
  have hall : Faithful n o known (Memory.addAll o d n.allProperties) :=
    hd.addAll hn fun p hp => hp
  have hprimary := hall.addPrimaryType fun p hp =>
    hn.isSome_get?_addAll hp (roundTrips_typeName (by decide) ..)
  unfold Memory.fill addTypes
  dsimp only
  split
  · next hsyn =>
    have hslot := Dict.get?_addNew_self (Memory.addAll o d n.allProperties)
      primaryTypeName (pendingSlot n.typeShown.natural)
    rw [hslot]
    dsimp only
    cases hset : n.property? (storageName known resourceTypeName) with
    | none =>
        obtain ⟨p, hp, hvalue⟩ := hprimary.answers _ _ hslot
        rw [NodeState.answer?_primaryTypeName] at hp
        refine hprimary.addNew (p := p) ?_ hvalue (Entry.calm_pending _ _)
        rw [NodeState.answer?_resourceTypeName hset hsyn, hp]
    | some p =>
        -- a property has set the resource type, and is there already
        have hthere := hn.isSome_get?_addAll (d := d) hset
          (roundTrips_typeName (by decide) ..)
        obtain ⟨slot, hget⟩ := Option.isSome_iff_exists.1 hthere
        rw [Dict.addNew_of_some (Dict.get?_addNew_of_some hget _ _)]
        exact hprimary
  · exact hprimary

/-- What is there stays while the types are added. -/
theorem get?_addTypes_of_some {key : String} {slot : Slot Repository}
    (h : d.get? key = some slot) :
    (addTypes o n d).get? key = some slot := by
  have hprimary := Dict.get?_addNew_of_some h primaryTypeName
    (pendingSlot n.typeShown.natural)
  unfold addTypes
  dsimp only
  split
  · split
    · exact Dict.get?_addNew_of_some hprimary _ _
    · exact hprimary
  · exact hprimary

/-- The primary type is there after the types were added, and so is the
resource type if it is asked for. -/
theorem isSome_get?_addTypes (n : NodeState)
    (d : Dict (Slot Repository)) {key : String}
    (h : key = primaryTypeName ∨
      key = resourceTypeName ∧ o.synthesizeResourceType = true) :
    ((addTypes o n d).get? key).isSome := by
  have hself := Dict.get?_addNew_self d primaryTypeName
    (pendingSlot n.typeShown.natural)
  unfold addTypes
  rcases h with rfl | ⟨rfl, hsyn⟩
  · dsimp only
    split
    · rw [hself]
      dsimp only
      rw [Dict.get?_addNew_of_some hself]
      rfl
    · rw [hself]
      rfl
  · simp only [hsyn, if_true, hself]
    rw [Dict.get?_addNew_self]
    rfl

/-- Filling the slots leaves no answer out. -/
theorem NodeState.Readable.isSome_get?_fill (hn : n.Readable o known)
    {key : String} (hk : RoundTrips o.legacyPathEncoding known key)
    (h : (n.answer? o known key).isSome) :
    ((fill o n d).get? key).isSome := by
  unfold answer? at h
  cases hp : n.property? (storageName known key) with
  | some p =>
      obtain ⟨slot, hget⟩ := Option.isSome_iff_exists.1
        (hn.isSome_get?_addAll (d := d) hp hk)
      rw [fill, get?_addTypes_of_some hget]
      rfl
  | none =>
      rw [hp] at h
      dsimp only at h
      refine isSome_get?_addTypes n _ ?_
      split at h
      · next heq => exact .inl heq
      · split at h
        · next heq => exact .inr heq
        · cases h

/-- A filled cache answers all keys that are those of their storage
names, whatever faithful slots it started with. -/
theorem get?_fill (hn : n.Readable o known) (hd : Faithful n o known d)
    {key : String} (hk : RoundTrips o.legacyPathEncoding known key) :
    ((fill o n d).get? key).map (·.value) =
      (n.answer? o known key).map StoredProperty.natural := by
  cases hget : (fill o n d).get? key with
  | some slot =>
      obtain ⟨p, hp, hvalue⟩ := (hd.fill hn).answers key slot hget
      rw [hp]
      exact congrArg some hvalue
  | none =>
      cases hanswer : n.answer? o known key with
      | none => rfl
      | some p =>
          have hsome := hn.isSome_get?_fill (d := d) hk (by rw [hanswer]; rfl)
          rw [hget] at hsome
          cases hsome

end Filling

end ContentProperties.Memory
