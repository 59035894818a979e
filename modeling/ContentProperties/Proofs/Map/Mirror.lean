/-
The cache of a map and the properties of its node, kept in step. The one
holds values as they were written, under keys, the other their normal
forms, under storage names; and types that were added for want of a
property stand between the entries of the cache, wherever the full read
left them, while a fresh read always puts them last.

`Mirrors` says that without these types the entries of the cache and the
properties correspond one by one in the same order, and that the types
are the ones a fresh read would add. A full read of an empty cache
establishes it, setting and dropping one property on both sides keeps
it: replacing in place, appending, and closing the gap are the same
moves in both lists, as keys and storage names tell each other.
-/
import ContentProperties.Proofs.Map.Dictionary
import ContentProperties.Proofs.Map.Listing
import ContentProperties.Proofs.Map.NormalForms

namespace ContentProperties.Memory

open PropertyMap

-- ============================================================= mirrors

/-- An entry of a cache corresponds to a property: the key is that of the
name, and the property has the normal form of the value. -/
def Corresponds (o : MapOptions) (e : String × Slot Repository)
    (q : String × StoredProperty) : Prop :=
  e.1 = decodeName o.legacyPathEncoding q.1 ∧
    e.2.value.normalForm? = some q.2.natural

/-- The entries of a cache correspond to the properties of a node in the
same order, except for the types that stand in for properties, which are
those that a full read would add. -/
structure Mirrors (n : NodeState) (o : MapOptions) (known : List String)
    (d : Dict (Slot Repository)) : Prop where
  rest : List.Forall₂ (Corresponds o)
    (d.entries.filter fun e => !n.synthesizes known e.1) n.listed
  types : (d.entries.filter fun e => n.synthesizes known e.1) =
    n.types o known

section Steps

variable {n : NodeState} {o : MapOptions} {known : List String}
variable {d : Dict (Slot Repository)} {key : String}

/-- Keys and storage names tell each other. -/
theorem Corresponds.key_iff (hn : n.Readable o known)
    (hk : RoundTrips o.legacyPathEncoding known key)
    {e : String × Slot Repository} {q : String × StoredProperty}
    (hq : q ∈ n.listed) (h : Corresponds o e q) :
    e.1 = key ↔ q.1 = storageName known key := by
  rw [h.1]
  constructor
  · intro heq
    rw [← heq, hn.canonical_listed hq]
  · intro heq
    rw [heq, hk]

/-- Setting a slot and a property that shows the normal form of its value
keeps cache and node in step. -/
theorem Mirrors.set (hd : Mirrors n o known d) (hn : n.Readable o known)
    (hk : PropertyKey o.legacyPathEncoding known key) {p : StoredProperty}
    (hname : p.name = storageName known key) {slot : Slot Repository}
    (hslot : slot.value.normalForm? = some p.natural) :
    Mirrors (n.withProperty p) o known (d.set key slot) := by
  obtain ⟨hp, hm⟩ := hk.storageName_ne
  have hsame := n.sameTypes_withProperty hk hname
  have hsyn := n.synthesizes_of_ne known hk.notPrimary hk.notResource
  have hnew : Corresponds o (key, slot) (p.name, p) := by
    refine ⟨?_, hslot⟩
    rw [hname]
    exact hk.roundTrips.symm
  constructor
  · rw [hsame.synthesizes, n.listed_withProperty (hname ▸ hp) (hname ▸ hm),
      show (d.set key slot).entries = Dict.upsert key slot d.entries from rfl,
      Dict.filter_upsert_of_pos (P := fun k => !n.synthesizes known k)
        (by rw [hsyn]; rfl)]
    refine Dict.forall₂_upsert hd.rest (fun e q hq h => ?_) hnew
    rw [hname]
    exact h.key_iff hn hk.roundTrips hq
  · rw [hsame.synthesizes, hsame.types,
      show (d.set key slot).entries = Dict.upsert key slot d.entries from rfl,
      Dict.filter_upsert_of_neg hsyn]
    exact hd.types

/-- Dropping a slot and the property of its key keeps cache and node in
step. -/
theorem Mirrors.erase (hd : Mirrors n o known d) (hn : n.Readable o known)
    (hk : PropertyKey o.legacyPathEncoding known key) :
    Mirrors (n.withoutProperty (storageName known key)) o known
      (d.erase key) := by
  obtain ⟨hp, hm⟩ := hk.storageName_ne
  have hsame := n.sameTypes_withoutProperty hk
  have hsyn := n.synthesizes_of_ne known hk.notPrimary hk.notResource
  constructor
  · rw [hsame.synthesizes, n.listed_withoutProperty hp hm,
      show (d.erase key).entries = Dict.without key d.entries from rfl,
      Dict.filter_without (fun k => !n.synthesizes known k)]
    exact Dict.forall₂_without hd.rest fun e q hq h =>
      h.key_iff hn hk.roundTrips hq
  · have hnot : key ∉ namesOf (n.types o known) := by
      intro hmem
      obtain ⟨e, he, rfl⟩ := List.mem_map.1 hmem
      rw [NodeState.synthesizes_of_mem_types he] at hsyn
      cases hsyn
    rw [hsame.synthesizes, hsame.types,
      show (d.erase key).entries = Dict.without key d.entries from rfl,
      Dict.filter_without (n.synthesizes known), hd.types,
      Dict.without_eq_self hnot]

-- ========================================================= fresh reads

/-- Entries that are added under new and distinct keys come one after the
other. -/
theorem entries_addAll {ps : List StoredProperty}
    (hps : (ps.map (·.key o)).Nodup)
    (hd : ∀ p ∈ ps, d.get? (p.key o) = none) :
    (addAll o d ps).entries =
      d.entries ++ ps.map fun p => (p.key o, p.slot) := by
  induction ps generalizing d with
  | nil => exact (List.append_nil _).symm
  | cons p rest ih =>
    obtain ⟨hp, hrest⟩ := List.nodup_cons.1 hps
    have hadded := Dict.entries_addNew_of_none
      (hd p (List.mem_cons_self ..)) p.slot
    have hnone : ∀ q ∈ rest,
        (d.addNew (p.key o) p.slot).get? (q.key o) = none := by
      intro q hq
      rw [Dict.get?_addNew_of_ne]
      · exact hd q (List.mem_cons_of_mem _ hq)
      · exact fun heq => hp (List.mem_map.2 ⟨q, hq, heq⟩)
    show (addAll o (d.addNew (p.key o) p.slot) rest).entries = _
    rw [ih hrest hnone, hadded, List.append_assoc]
    rfl

/-- The entries of the properties in a fresh cache. -/
def NodeState.shown (n : NodeState) (o : MapOptions) :
    List (String × Slot Repository) :=
  n.listed.map fun q => (decodeName o.legacyPathEncoding q.1, q.2.slot)

theorem entries_addAll_empty (hn : n.Readable o known) :
    (addAll o Dict.empty n.allProperties).entries = n.shown o := by
  have hkeys : n.allProperties.map (fun p => (p.key o, p.slot)) =
      n.shown o := by
    rw [← n.map_listed, List.map_map]
    refine List.map_congr_left fun q hq => ?_
    simp only [Function.comp, StoredProperty.key,
      hn.wellFormed.name_of_mem_listed hq]
  have hnodup : (n.allProperties.map (·.key o)).Nodup := by
    have hnames : n.allProperties.map (·.key o) =
        (namesOf n.listed).map (decodeName o.legacyPathEncoding) := by
      rw [← n.map_listed, namesOf, List.map_map, List.map_map]
      refine List.map_congr_left fun q hq => ?_
      simp only [Function.comp, StoredProperty.key,
        hn.wellFormed.name_of_mem_listed hq]
    rw [hnames]
    refine List.Nodup.map_on ?_ hn.wellFormed.nodup_listed
    intro a ha b hb hab
    obtain ⟨q, hq, rfl⟩ := List.mem_map.1 ha
    obtain ⟨q', hq', rfl⟩ := List.mem_map.1 hb
    exact (hn.canonical_listed hq).inj (hn.canonical_listed hq') hab
  rw [entries_addAll hnodup fun p hp => rfl, hkeys]
  rfl

/-- A fresh cache has the property of a key under that key. -/
theorem get?_addAll_empty (hn : n.Readable o known)
    (hk : RoundTrips o.legacyPathEncoding known key) :
    (addAll o Dict.empty n.allProperties).get? key =
      (n.property? (storageName known key)).map StoredProperty.slot := by
  have hentries := entries_addAll_empty hn
  cases hp : n.property? (storageName known key) with
  | some p =>
      refine Dict.mem_entries_iff.1 ?_
      rw [hentries]
      refine List.mem_map.2 ⟨(storageName known key, p), ?_, ?_⟩
      · exact hn.wellFormed.mem_listed_iff.2 hp
      · rw [hk]
  | none =>
      cases hget : (addAll o Dict.empty n.allProperties).get? key with
      | none => rfl
      | some slot =>
          have hmem := Dict.mem_entries_iff.2 hget
          rw [hentries] at hmem
          obtain ⟨q, hq, heq⟩ := List.mem_map.1 hmem
          have hname : storageName known key = q.1 := by
            cases heq
            exact hn.canonical_listed hq
          rw [hname, hn.wellFormed.mem_listed_iff.1 hq] at hp
          cases hp

/-- A fresh full read shows the properties in their order, and then the
types that stand in for some. -/
theorem entries_fill_empty (hn : n.Readable o known) :
    (fill o n Dict.empty).entries = n.shown o ++ n.types o known := by
  have hentries := entries_addAll_empty hn
  have hshows : ∀ name ∈ typeNames,
      (addAll o Dict.empty n.allProperties).get? name =
        (n.property? (storageName known name)).map StoredProperty.slot :=
    fun name h =>
      get?_addAll_empty hn (roundTrips_typeName h o.legacyPathEncoding known)
  have hprimary := hshows primaryTypeName (by decide)
  have hresource := hshows resourceTypeName (by decide)
  have hne : resourceTypeName ≠ primaryTypeName := by decide
  have hself := Dict.get?_addNew_self (addAll o Dict.empty n.allProperties)
    primaryTypeName (pendingSlot n.typeShown.natural)
  have hother := Dict.get?_addNew_of_ne
    (addAll o Dict.empty n.allProperties) hne
    (pendingSlot n.typeShown.natural)
  -- the resource type is taken from whatever shows the primary type
  have hshown : (((addAll o Dict.empty n.allProperties).get?
      primaryTypeName).getD (pendingSlot n.typeShown.natural)).value =
        (n.primaryShown known).natural := by
    rw [hprimary, NodeState.primaryShown]
    cases n.property? (storageName known primaryTypeName) <;> rfl
  unfold fill addTypes NodeState.types NodeState.synthesizes
  dsimp only
  cases o.synthesizeResourceType with
  | false =>
      rw [if_neg Bool.false_ne_true, Dict.entries_addNew, hentries, hprimary,
        Option.isNone_map]
      simp
  | true =>
      rw [if_pos rfl, hself]
      dsimp only
      rw [Dict.entries_addNew, Dict.entries_addNew, hother, hshown, hentries,
        hprimary, hresource, Option.isNone_map, Option.isNone_map]
      simp

/-- A fresh full read puts the cache in step with the node. -/
theorem mirrors_fill_empty (hn : n.Readable o known) :
    Mirrors n o known (fill o n Dict.empty) := by
  have hshown : ∀ e ∈ n.shown o, n.synthesizes known e.1 = false := by
    intro e he
    obtain ⟨q, hq, rfl⟩ := List.mem_map.1 he
    exact hn.synthesizes_decodeName hq
  have htypes : ∀ e ∈ n.types o known, n.synthesizes known e.1 = true :=
    fun e he => NodeState.synthesizes_of_mem_types he
  constructor
  · rw [entries_fill_empty hn, List.filter_append,
      List.filter_eq_self.2 fun e he => by rw [hshown e he]; rfl,
      List.filter_eq_nil_iff.2 fun e he => by rw [htypes e he]; decide,
      List.append_nil]
    unfold NodeState.shown
    refine List.forall₂_map_left_iff.2 (List.forall₂_same.2 ?_)
    intro q hq
    exact ⟨rfl, q.2.normalForm?_natural⟩
  · rw [entries_fill_empty hn, List.filter_append,
      List.filter_eq_nil_iff.2 fun e he => by rw [hshown e he]; decide,
      List.filter_eq_self.2 fun e he => htypes e he,
      List.nil_append]

end Steps

-- ============================================================ agreement

/-- What two readers of one node agree on when one of them has written
it: the keys, the values up to their normal forms, and the order of the
keys except for types that stand in for properties. -/
structure Agree (standsIn : String → Bool)
    (es fs : List (String × Value)) : Prop where
  keys : ∀ key, key ∈ namesOf es ↔ key ∈ namesOf fs
  values : ∀ key x, (key, x) ∈ es →
    ∃ y, (key, y) ∈ fs ∧ x.normalForm? = some y
  order : (namesOf es).filter (fun key => !standsIn key) =
    (namesOf fs).filter fun key => !standsIn key

/-- Nothing is found on either side, or a value on the one and its normal
form on the other. -/
abbrev FindsNormalForm (x? y? : Option Value) : Prop :=
  Option.Rel (fun x y => x.normalForm? = some y) x? y?

section Mirrored

variable {n : NodeState} {o : MapOptions} {known : List String}
variable {d : Dict (Slot Repository)}

/-- The slots of a cache as its reader sees them. -/
abbrev listingOf (d : Dict (Slot Repository)) : List (String × Value) :=
  Cache.listing ⟨d, true⟩

theorem namesOf_filter_listing (P : String → Bool)
    (d : Dict (Slot Repository)) :
    (namesOf (listingOf d)).filter P =
      namesOf (d.entries.filter fun e => P e.1) := by
  simp only [listingOf, namesOf, Cache.listing, List.map_map,
    List.filter_map]
  rfl

/-- The keys of corresponding entries are those of the properties. -/
theorem namesOf_of_forall₂ {es : List (String × Slot Repository)}
    {qs : List (String × StoredProperty)}
    (h : List.Forall₂ (Corresponds o) es qs) :
    namesOf es = qs.map fun q => decodeName o.legacyPathEncoding q.1 := by
  induction h with
  | nil => rfl
  | cons hq _ ih =>
    simp only [namesOf, List.map_cons] at ih ⊢
    rw [hq.1, ih]

/-- Caches that mirror one node agree on the keys that are not stood in
for, and on those that are. -/
theorem Mirrors.namesOf_filter {d' : Dict (Slot Repository)}
    (hd : Mirrors n o known d) (hd' : Mirrors n o known d') :
    (namesOf (listingOf d)).filter (fun key => !n.synthesizes known key) =
        (namesOf (listingOf d')).filter
          (fun key => !n.synthesizes known key) ∧
      (namesOf (listingOf d)).filter (n.synthesizes known) =
        (namesOf (listingOf d')).filter (n.synthesizes known) := by
  rw [namesOf_filter_listing (fun key => !n.synthesizes known key),
    namesOf_filter_listing (fun key => !n.synthesizes known key),
    namesOf_filter_listing, namesOf_filter_listing,
    namesOf_of_forall₂ hd.rest, namesOf_of_forall₂ hd'.rest, hd.types,
    hd'.types]
  exact ⟨rfl, rfl⟩

/-- A cache that mirrors a node agrees with a fresh one. -/
theorem Mirrors.agree (hn : n.Readable o known) (hd : Mirrors n o known d) :
    Agree (n.synthesizes known) (listingOf d)
      (listingOf (fill o n Dict.empty)) := by
  obtain ⟨hrest, htypes⟩ := hd.namesOf_filter (mirrors_fill_empty hn)
  have hfresh := entries_fill_empty hn
  refine ⟨fun key => ?_, fun key x hx => ?_, hrest⟩
  · cases hsyn : n.synthesizes known key with
    | true =>
        have h : ∀ l : List String,
            key ∈ l ↔ key ∈ l.filter (n.synthesizes known) := by
          intro l
          simp [hsyn]
        rw [h (namesOf (listingOf d)), htypes, ← h]
    | false =>
        have h : ∀ l : List String,
            key ∈ l ↔ key ∈ l.filter (fun k => !n.synthesizes known k) := by
          intro l
          simp [hsyn]
        rw [h (namesOf (listingOf d)), hrest, ← h]
  · obtain ⟨e, he, heq⟩ := List.mem_map.1 hx
    cases heq
    cases hsyn : n.synthesizes known e.1 with
    | true =>
        -- a type that stands in is the same on both sides
        have hmem : e ∈ n.types o known := by
          rw [← hd.types]
          exact List.mem_filter.2 ⟨he, hsyn⟩
        obtain ⟨p, hp⟩ := NodeState.natural_of_mem_types hmem
        refine ⟨e.2.value, List.mem_map.2 ⟨e, ?_, rfl⟩, ?_⟩
        · rw [hfresh]
          exact List.mem_append_right _ hmem
        · rw [hp]
          exact p.normalForm?_natural
    | false =>
        have hmem : e ∈ d.entries.filter fun e => !n.synthesizes known e.1 :=
          List.mem_filter.2 ⟨he, by rw [hsyn]; rfl⟩
        obtain ⟨q, hq, hkey, hvalue⟩ := exists_of_forall₂ hd.rest hmem
        refine ⟨q.2.natural, List.mem_map.2 ⟨(e.1, q.2.slot), ?_, rfl⟩, hvalue⟩
        rw [hfresh, hkey]
        exact List.mem_append_left _ (List.mem_map.2 ⟨q, hq, rfl⟩)

/-- What a cache that mirrors a node has under a key has its normal form
in a fresh one. -/
theorem Mirrors.finds (hn : n.Readable o known) (hd : Mirrors n o known d)
    (key : String) :
    FindsNormalForm ((d.get? key).map (·.value))
      (((fill o n Dict.empty).get? key).map (·.value)) := by
  have hagree := hd.agree hn
  have hlisted : ∀ {d : Dict (Slot Repository)} {x : Value},
      (key, x) ∈ listingOf d → (d.get? key).map (·.value) = some x := by
    intro d x hx
    obtain ⟨e, he, heq⟩ := List.mem_map.1 hx
    cases heq
    rw [Dict.mem_entries_iff.1 he]
    rfl
  have hfound : ∀ {d : Dict (Slot Repository)} {slot : Slot Repository},
      d.get? key = some slot → (key, slot.value) ∈ listingOf d := by
    intro d slot h
    exact List.mem_map.2 ⟨(key, slot), Dict.mem_entries_iff.2 h, rfl⟩
  cases hget : d.get? key with
  | some slot =>
      obtain ⟨y, hy, hform⟩ := hagree.values key slot.value (hfound hget)
      rw [hlisted hy]
      exact .some hform
  | none =>
      cases hfresh : (fill o n Dict.empty).get? key with
      | none => exact .none
      | some slot =>
          have hmem := (hagree.keys key).2
            (List.mem_map_of_mem (hfound hfresh))
          obtain ⟨e, he, rfl⟩ := List.mem_map.1 hmem
          have hsome := hlisted he
          rw [hget] at hsome
          cases hsome

end Mirrored

end ContentProperties.Memory
