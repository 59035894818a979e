/-
The properties of a node with the names they are listed under, and what
a full read adds to them. Setting or dropping a property does to the
list what it does to a dictionary: it replaces in place, appends, or
closes the gap. The node stays readable under writes to canonical names,
and the types that stand in for properties stay the same under writes to
the names of other keys.
-/
import ContentProperties.Proofs.Map.Answers
import Mathlib.Data.List.Nodup

namespace ContentProperties.Memory

open PropertyMap

-- ==================================================== listed properties

/-- The properties of a node with their names, those that show types
first. -/
def NodeState.listed (n : NodeState) : List (String × StoredProperty) :=
  ((n.typeProperty? primaryTypeName).toList ++
    (n.typeProperty? mixinTypesName).toList).map (fun p => (p.name, p)) ++
    n.properties.entries

namespace NodeState

variable {n n' : NodeState} {o : MapOptions} {known : List String}
variable {p : StoredProperty} {name : String}

/-- The list shows the properties that an enumeration shows. -/
theorem map_listed (n : NodeState) :
    n.listed.map (·.2) = n.allProperties := by
  simp [listed, allProperties, Dict.values, Function.comp_def]

/-- A property is listed under its own name. -/
theorem WellFormed.name_of_mem_listed (hn : n.WellFormed)
    {q : String × StoredProperty} (hq : q ∈ n.listed) : q.2.name = q.1 := by
  rcases List.mem_append.1 hq with hq | hq
  · obtain ⟨p, -, rfl⟩ := List.mem_map.1 hq
    rfl
  · exact hn.named q hq

/-- A listed property is found under its name, and what is found is
listed. -/
theorem WellFormed.mem_listed_iff (hn : n.WellFormed)
    {q : String × StoredProperty} :
    q ∈ n.listed ↔ n.property? q.1 = some q.2 := by
  constructor
  · intro hq
    have hmem : q.2 ∈ n.allProperties := by
      rw [← n.map_listed]
      exact List.mem_map_of_mem hq
    rw [← hn.name_of_mem_listed hq]
    exact hn.mem_allProperties_iff.1 hmem
  · intro hq
    have hname := (hn.of_property?_eq_some hq).1
    have hmem : q.2 ∈ n.allProperties := by
      rw [hn.mem_allProperties_iff, hname, hq]
    rw [← n.map_listed] at hmem
    obtain ⟨q', hq', heq⟩ := List.mem_map.1 hmem
    have hname' := hn.name_of_mem_listed hq'
    rw [heq, hname] at hname'
    rwa [show q = q' from Prod.ext hname' heq.symm]

/-- The names of listed properties are distinct. -/
theorem WellFormed.nodup_listed (hn : n.WellFormed) :
    (namesOf n.listed).Nodup := by
  have hfront : ∀ name ∈ namesOf
      (((n.typeProperty? primaryTypeName).toList ++
        (n.typeProperty? mixinTypesName).toList).map fun p => (p.name, p)),
      name = primaryTypeName ∨ name = mixinTypesName := by
    intro name hname
    simp only [namesOf, List.map_map, List.mem_map, List.mem_append,
      Option.mem_toList] at hname
    obtain ⟨p, hp | hp, rfl⟩ := hname
    · exact .inl (of_typeProperty?_eq_some hp).1
    · exact .inr (of_typeProperty?_eq_some hp).1
  have hdisjoint : ∀ name ∈ n.properties.keys,
      ¬(name = primaryTypeName ∨ name = mixinTypesName) := by
    rintro name hname (rfl | rfl)
    · exact hn.unprotected.1 hname
    · exact hn.unprotected.2 hname
  unfold listed namesOf
  rw [List.map_append]
  refine List.nodup_append.2 ⟨?_, n.properties.nodup, ?_⟩
  · cases hp : n.typeProperty? primaryTypeName with
    | none => cases n.typeProperty? mixinTypesName <;> simp
    | some p =>
        cases hm : n.typeProperty? mixinTypesName with
        | none => simp
        | some m =>
            have hpname := (of_typeProperty?_eq_some hp).1
            have hmname := (of_typeProperty?_eq_some hm).1
            have hne : primaryTypeName ≠ mixinTypesName := by decide
            simp [hpname, hmname, hne]
  · intro a ha b hb hab
    subst hab
    exact hdisjoint a hb (hfront a ha)

/-- The types come first, under their own names. -/
theorem not_mem_front (n : NodeState) (hp : name ≠ primaryTypeName)
    (hm : name ≠ mixinTypesName) : name ∉ namesOf
      (((n.typeProperty? primaryTypeName).toList ++
        (n.typeProperty? mixinTypesName).toList).map
          fun p => (p.name, p)) := by
  intro hname
  simp only [namesOf, List.map_map, List.mem_map, List.mem_append,
    Option.mem_toList] at hname
  obtain ⟨p, h | h, rfl⟩ := hname
  · exact hp (of_typeProperty?_eq_some h).1
  · exact hm (of_typeProperty?_eq_some h).1

/-- To set a property is to set an entry of the list. -/
theorem listed_withProperty (n : NodeState) (hp : p.name ≠ primaryTypeName)
    (hm : p.name ≠ mixinTypesName) :
    (n.withProperty p).listed = Dict.upsert p.name p n.listed :=
  (Dict.upsert_append (n.not_mem_front hp hm) p n.properties.entries).symm

/-- To remove a property is to close a gap in the list. -/
theorem listed_withoutProperty (n : NodeState)
    (hp : name ≠ primaryTypeName) (hm : name ≠ mixinTypesName) :
    (n.withoutProperty name).listed = Dict.without name n.listed :=
  (Dict.without_append (n.not_mem_front hp hm) n.properties.entries).symm

-- ============================================== nodes that stay readable

/-- Canonical names may be stated of the listed properties. -/
theorem Readable.canonical_listed (hn : n.Readable o known)
    {q : String × StoredProperty} (hq : q ∈ n.listed) :
    Canonical o.legacyPathEncoding known q.1 := by
  rw [← hn.wellFormed.name_of_mem_listed hq]
  refine hn.canonical q.2 ?_
  rw [← n.map_listed]
  exact List.mem_map_of_mem hq

theorem readable_of_listed (hn : n.WellFormed)
    (h : ∀ q ∈ n.listed, Canonical o.legacyPathEncoding known q.1) :
    n.Readable o known := by
  refine ⟨hn, fun p hp => ?_⟩
  rw [← n.map_listed] at hp
  obtain ⟨q, hq, rfl⟩ := List.mem_map.1 hp
  rw [hn.name_of_mem_listed hq]
  exact h q hq

/-- Writing under a canonical name leaves a node readable. -/
theorem Readable.withProperty (hn : n.Readable o known)
    (hp : p.name ≠ primaryTypeName) (hm : p.name ≠ mixinTypesName)
    (hwf : p.WellFormed)
    (hcanonical : Canonical o.legacyPathEncoding known p.name) :
    (n.withProperty p).Readable o known := by
  have hwf' := hn.wellFormed.withProperty hp hm hwf
  refine readable_of_listed hwf' fun q hq => ?_
  by_cases hname : q.1 = p.name
  · rw [hname]
    exact hcanonical
  · rw [hwf'.mem_listed_iff, property?_withProperty_of_ne _ hname,
      ← hn.wellFormed.mem_listed_iff] at hq
    exact hn.canonical_listed hq

/-- Removing a property leaves a node readable. -/
theorem Readable.withoutProperty (hn : n.Readable o known)
    (hp : name ≠ primaryTypeName) (hm : name ≠ mixinTypesName) :
    (n.withoutProperty name).Readable o known := by
  refine readable_of_listed (hn.wellFormed.withoutProperty name)
    fun q hq => ?_
  rw [n.listed_withoutProperty hp hm] at hq
  exact hn.canonical_listed (List.mem_filter.1 hq).1

-- ======================================================== added types

/-- Whether a key is one under which a type stands in for a property that
is not there. -/
def synthesizes (n : NodeState) (known : List String) (key : String) :
    Bool :=
  (key == primaryTypeName || key == resourceTypeName) &&
    (n.property? (storageName known key)).isNone

/-- The types that a full read adds at the end. -/
def types (n : NodeState) (o : MapOptions) (known : List String) :
    List (String × Slot Repository) :=
  (if n.synthesizes known primaryTypeName then
    [(primaryTypeName, pendingSlot n.typeShown.natural)] else []) ++
  if o.synthesizeResourceType && n.synthesizes known resourceTypeName then
    [(resourceTypeName, pendingSlot (n.primaryShown known).natural)]
  else []

/-- Two nodes that show the same types. -/
structure SameTypes (n n' : NodeState) (known : List String) : Prop where
  type : n'.primaryType = n.primaryType
  primary : n'.property? (storageName known primaryTypeName) =
    n.property? (storageName known primaryTypeName)
  resource : n'.property? (storageName known resourceTypeName) =
    n.property? (storageName known resourceTypeName)

/-- Nodes that show the same types have types stand in under the same
keys. -/
theorem SameTypes.synthesizes (h : SameTypes n n' known) :
    n'.synthesizes known = n.synthesizes known := by
  funext key
  unfold NodeState.synthesizes
  by_cases hp : key = primaryTypeName
  · rw [hp, h.primary]
  · by_cases hr : key = resourceTypeName
    · rw [hr, h.resource]
    · rw [beq_false_of_ne hp, beq_false_of_ne hr]; rfl

theorem SameTypes.types (h : SameTypes n n' known) :
    n'.types o known = n.types o known := by
  unfold NodeState.types
  rw [h.synthesizes, NodeState.primaryShown, NodeState.primaryShown,
    h.primary, typeShown, typeShown, h.type]

/-- Setting or dropping a property under the storage name of another key
leaves the types. -/
theorem sameTypes_withProperty (n : NodeState) {key : String}
    (hk : PropertyKey o.legacyPathEncoding known key)
    (hname : p.name = storageName known key) :
    SameTypes n (n.withProperty p) known := by
  refine ⟨rfl, n.property?_withProperty_of_ne fun heq => hk.notPrimary ?_,
    n.property?_withProperty_of_ne fun heq => hk.notResource ?_⟩
  · exact storageName_injective known (hname.symm.trans heq.symm)
  · exact storageName_injective known (hname.symm.trans heq.symm)

theorem sameTypes_withoutProperty (n : NodeState) {key : String}
    (hk : PropertyKey o.legacyPathEncoding known key) :
    SameTypes n (n.withoutProperty (storageName known key)) known := by
  refine ⟨rfl, n.property?_withoutProperty_of_ne fun heq =>
      hk.notPrimary ?_,
    n.property?_withoutProperty_of_ne fun heq => hk.notResource ?_⟩
  · exact storageName_injective known heq.symm
  · exact storageName_injective known heq.symm

theorem synthesizes_of_ne (n : NodeState) (known : List String)
    {key : String} (hp : key ≠ primaryTypeName)
    (hr : key ≠ resourceTypeName) : n.synthesizes known key = false := by
  unfold synthesizes
  rw [beq_false_of_ne hp, beq_false_of_ne hr]
  rfl

/-- No type stands in under the key of a property. -/
theorem Readable.synthesizes_decodeName (hn : n.Readable o known)
    {q : String × StoredProperty} (hq : q ∈ n.listed) :
    n.synthesizes known (decodeName o.legacyPathEncoding q.1) = false := by
  unfold synthesizes
  rw [hn.canonical_listed hq, hn.wellFormed.mem_listed_iff.1 hq]
  simp

/-- Types stand in under their keys only. -/
theorem synthesizes_of_mem_types {e : String × Slot Repository}
    (he : e ∈ n.types o known) : n.synthesizes known e.1 = true := by
  unfold types at he
  rcases List.mem_append.1 he with he | he
  · split at he
    · next h =>
      rw [List.mem_singleton.1 he]
      exact h
    · cases he
  · split at he
    · next h =>
      rw [List.mem_singleton.1 he]
      exact (Bool.and_eq_true_iff.1 h).2
    · cases he

/-- Their values are as they are read. -/
theorem natural_of_mem_types {e : String × Slot Repository}
    (he : e ∈ n.types o known) :
    ∃ p : StoredProperty, e.2.value = p.natural := by
  unfold types at he
  rcases List.mem_append.1 he with he | he
  · split at he
    · rw [List.mem_singleton.1 he]
      exact ⟨n.typeShown, rfl⟩
    · cases he
  · split at he
    · rw [List.mem_singleton.1 he]
      exact ⟨n.primaryShown known, rfl⟩
    · cases he

end NodeState

end ContentProperties.Memory
