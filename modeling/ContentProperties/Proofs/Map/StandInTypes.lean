/-
The types of a node while it is written to. A map that has read
everything holds the primary type, and the resource type, in slots like
any other. A write to one of their keys changes that slot and no other,
whether or not the node derives the one type from the other; a fresh map
derives it anew.

So a run of writes leaves the two in one of a few relations, told by the
last write to each key (`TypesTracked`). A removed slot stays empty, but
a fresh map has a type still. A slot that was put agrees. A slot that no
write has touched holds the type that was there at the start: that is
the primary type still, but no longer a resource type that is derived,
once the primary type has been changed (`types_after_writes`).
-/
import ContentProperties.Proofs.Map.FreshReads
import ContentProperties.Proofs.Map.TextWrites
import ContentProperties.Proofs.Map.WriteThrough

namespace ContentProperties.Memory

open PropertyMap

variable {c : Site} {s t : MapState Repository}

-- ===================================================== types of a node

section Nodes

variable {n : NodeState} {known : List String} {key : String}

/-- The value of the resource type that is stored, if one is. -/
def NodeState.resourceStored (n : NodeState) (known : List String) :
    Option Value :=
  (n.property? (storageName known resourceTypeName)).map
    StoredProperty.natural

theorem NodeState.WellFormed.property?_primaryTypeName (hn : n.WellFormed) :
    n.property? primaryTypeName =
      if n.hidesPrimaryType then none else some n.typeShown := by
  have hfree : n.properties.get? primaryTypeName = none :=
    Dict.lookup_eq_none_iff.2 hn.unprotected.1
  unfold property? typeProperty?
  rw [if_pos rfl]
  split <;> simp_all [typeShown]

/-- The storage name of the resource type shows no type. -/
theorem resourceName_ne (known : List String) :
    storageName known resourceTypeName ≠ primaryTypeName ∧
      storageName known resourceTypeName ≠ mixinTypesName :=
  ⟨storageName_ne_typeName (by decide) known (by decide),
    storageName_ne_typeName (by decide) known (by decide)⟩

/-- The primary type that is shown is the string written under its key. -/
theorem primaryShown_withText (hn : n.WellFormed) (x : String) :
    ((n.withText (storageName known key) x).primaryShown known).natural =
      if key = primaryTypeName then .string x
      else (n.primaryShown known).natural := by
  by_cases hkey : key = primaryTypeName
  · subst hkey
    rw [if_pos rfl, NodeState.primaryShown]
    by_cases hname : storageName known primaryTypeName = primaryTypeName
    · -- The type of the node is set, which shows unless it is hidden.
      have hset : n.withText primaryTypeName x = { n with primaryType := x } :=
        if_pos rfl
      have hn' : ({ n with primaryType := x } : NodeState).WellFormed :=
        hn.congr rfl
      rw [hname, hset, hn'.property?_primaryTypeName]
      cases n.hidesPrimaryType <;> rfl
    · -- A property is set, which comes before the type of the node.
      rw [n.property?_withText_self hname
        (storageName_ne_typeName (by decide) known (by decide))]
      rfl
  · rw [if_neg hkey, NodeState.primaryShown, n.property?_withText_of_ne
      fun heq => hkey (storageName_injective known heq.symm),
      NodeState.withText,
      if_neg (storageName_ne_typeName (by decide) known hkey)]
    rfl

theorem resourceStored_withText (x : String) :
    (n.withText (storageName known key) x).resourceStored known =
      if key = resourceTypeName then some (.string x)
      else n.resourceStored known := by
  obtain ⟨hp, hm⟩ := resourceName_ne known
  unfold NodeState.resourceStored
  by_cases hkey : key = resourceTypeName
  · subst hkey
    rw [if_pos rfl, n.property?_withText_self hp hm]
    rfl
  · rw [if_neg hkey, n.property?_withText_of_ne
      fun heq => hkey (storageName_injective known heq.symm)]

/-- The node without the property of a storage name; the primary type
stays. -/
def NodeState.withoutText (n : NodeState) (name : String) : NodeState :=
  if name = primaryTypeName then n else n.withoutProperty name

theorem NodeState.property?_withoutText_of_ne (n : NodeState)
    {name other : String} (h : other ≠ name) :
    (n.withoutText name).property? other = n.property? other := by
  unfold withoutText
  split
  · rfl
  · exact n.property?_withoutProperty_of_ne h

theorem primaryShown_withoutText (hkey : key ≠ primaryTypeName) :
    (n.withoutText (storageName known key)).primaryShown known =
      n.primaryShown known := by
  rw [NodeState.primaryShown, n.property?_withoutText_of_ne
    fun heq => hkey (storageName_injective known heq.symm),
    NodeState.withoutText,
    if_neg (storageName_ne_typeName (by decide) known hkey)]
  rfl

theorem resourceStored_withoutText :
    (n.withoutText (storageName known key)).resourceStored known =
      if key = resourceTypeName then none else n.resourceStored known := by
  obtain ⟨hp, hm⟩ := resourceName_ne known
  unfold NodeState.resourceStored
  by_cases hkey : key = resourceTypeName
  · subst hkey
    rw [if_pos rfl, NodeState.withoutText, if_neg hp,
      n.property?_withoutProperty_self hp hm]
    rfl
  · rw [if_neg hkey, n.property?_withoutText_of_ne
      fun heq => hkey (storageName_injective known heq.symm)]

end Nodes

-- ======================================================= single writes

/-- The primary type cannot be removed: where removing its name succeeds,
there was nothing to remove. -/
theorem content_removeStored_primaryType {w u : World Repository}
    (hrun : c.map.removeStored primaryTypeName w = (.ok (), u)) :
    contentOf u = contentOf w := by
  unfold removeStored at hrun
  obtain ⟨found, w', hfound, hrun⟩ := ok_of_run_bind hrun
  have hkept := keeps_property? c.id c.sid primaryTypeName w
  rw [show (node c.id c.sid).property? primaryTypeName w = (.ok found, w')
    from hfound] at hkept
  cases found with
  | none =>
      cases hrun
      exact hkept
  | some p =>
      have hrefused : checkWritable primaryTypeName w' =
          (.error (.constraintViolation
            (primaryTypeName ++ " is protected")), w') := by
        simp [checkWritable]
      have hfailed : (node c.id c.sid).removeProperty primaryTypeName w' =
          (.error (.constraintViolation
            (primaryTypeName ++ " is protected")), w') :=
        run_bind_of_error hrefused _
      rw [show (node c.id c.sid).removeProperty primaryTypeName w' =
        (.ok (), u) from hrun] at hfailed
      cases hfailed

theorem surroundings_withdraw_primaryType {v : Surroundings}
    (hs : c.surroundings s = v) {key : String}
    (hname : storageName v.known key = primaryTypeName)
    (hrun : c.map.withdraw key s = (.ok (), t)) : c.surroundings t = v := by
  obtain ⟨u, hescaped, hu⟩ := run_escapeKey (c := c) key s
  rw [known_of_surroundings hs, hname] at hescaped
  unfold withdraw at hrun
  rw [run_bind_of_ok hescaped, run_bind, MapM.run_attempt] at hrun
  rcases hr : c.map.removeStored primaryTypeName u.world with ⟨e | _, w⟩
  · rw [hr] at hrun
    cases hrun
  · rw [hr] at hrun
    cases hrun
    have hworld := observed_world (c := c) (content_removeStored_primaryType hr)
    exact (congrArg Prod.snd (hworld.trans hu)).trans hs

/-- A key for a string: it is no path and not that of the mixin types. -/
structure TextKey (key : String) : Prop where
  nonempty : key ≠ ""
  noPath : isPath key = false
  notMixins : key ≠ mixinTypesName

theorem TextKey.isPlain {key : String} (h : TextKey key) : IsPlain key :=
  isPlain_of_not_isPath h.nonempty h.noPath

/-- A remove that succeeds on a map that has read everything drops the
slot of the key and its property. -/
theorem remove_text (hw : c.writable = true)
    (hwf : (contentOf s.world).WellFormed)
    (hread : s.cache.fullyRead = true) {key : String} (hk : TextKey key)
    {old : Option Value} (hrun : c.map.remove key s = (.ok old, t)) :
    t.cache = ⟨s.cache.slots.erase key, true⟩ ∧ c.known t = c.known s ∧
      (contentOf t.world).WellFormed ∧
      c.node t = (c.node s).withoutText (storageName (c.known s) key) := by
  have hkey := plainKey_of_not_isPath hk.noPath
  unfold NodeState.withoutText
  by_cases hp : storageName (c.known s) key = primaryTypeName
  · -- The slot goes, and the node keeps its type.
    rw [if_pos hp]
    rcases remove_cases (m := c.map) hw hread key with
      ⟨e, u, -, hrem⟩ | ⟨u, hgone, hrem⟩
    · rw [hrem] at hrun
      cases hrun
    · rw [hrem] at hrun
      cases hrun
      rw [hkey] at hgone ⊢
      have hu := surroundings_withdraw_primaryType (v := c.surroundings s) rfl
        hp hgone
      have hcontent : contentOf u.world = contentOf s.world :=
        content_of_surroundings hu
      refine ⟨rfl, known_of_surroundings hu, ?_, node_of_surroundings hu⟩
      show (contentOf u.world).WellFormed
      rw [hcontent]
      exact hwf
  · rw [if_neg hp]
    have hm := storageName_ne_typeName (by decide) (c.known s) hk.notMixins
    obtain ⟨_, u, hrem, hcache, hu⟩ := remove_outcome hw
      (v := c.surroundings s) rfl hread hk.isPlain (by rwa [hkey])
      (by rwa [hkey])
    rw [hrem] at hrun
    cases hrun
    rw [hkey] at hcache hu
    refine ⟨hcache, known_of_surroundings hu, ?_, ?_⟩
    · rw [content_of_surroundings hu]
      exact hwf.withoutProperty c.id _
    · rw [node_of_surroundings hu]
      exact (c.surroundings s).repo.nodes_modifyNode c.id
        (·.withoutProperty (storageName (c.known s) key))

/-- A put of a string to a map that has read everything sets the slot of
the key, and writes the string to the node. -/
theorem run_put_text (hw : c.writable = true)
    (hwf : (contentOf s.world).WellFormed)
    (hread : s.cache.fullyRead = true) {key : String} (hk : TextKey key)
    (x : String) :
    ∃ old t, c.map.put key (.string x) s = (.ok old, t) ∧
      t.cache = ⟨s.cache.slots.set key (pendingSlot (.string x)), true⟩ ∧
      c.known t = c.known s ∧ (contentOf t.world).WellFormed ∧
      c.node t = (c.node s).withText (storageName (c.known s) key) x := by
  have hm := storageName_ne_typeName (by decide) (c.known s) hk.notMixins
  obtain ⟨old, t, hrun, hcache, ht⟩ := put_text (v := c.surroundings s) hw rfl
    hread hk.nonempty hk.noPath hm x
  refine ⟨old, t, hrun, hcache, known_of_surroundings ht, ?_, ?_⟩
  · rw [content_of_surroundings ht]
    exact Repository.WellFormed.modifyNode hwf fun n hn => hn.withText hm x
  · rw [node_of_surroundings ht]
    exact (c.surroundings s).repo.nodes_modifyNode c.id
      (·.withText (storageName (c.known s) key) x)

-- ======================================================= runs of writes

/-- What the write leaves under its key. -/
def Write.left? : Write → Option Value
  | .put _ x => some x
  | .remove _ => none

/-- A write of a string, or a remove. -/
def Write.IsText : Write → Prop
  | .put key x => TextKey key ∧ ∃ text, x = .string text
  | .remove key => TextKey key

theorem Write.IsText.textKey {w : Write} (h : w.IsText) : TextKey w.key := by
  cases w with
  | put key x => exact h.1
  | remove key => exact h

/-- The last of the writes to a key, if there is one. -/
def lastWrite (key : String) (ws : List Write) : Option Write :=
  (ws.filter fun w => w.key = key).getLast?

theorem lastWrite_concat (key : String) (ws : List Write) (w : Write) :
    lastWrite key (ws ++ [w]) =
      if w.key = key then some w else lastWrite key ws := by
  unfold lastWrite
  by_cases h : w.key = key <;> simp [h]

/-- Whether the last of the writes to a key was a remove. -/
def removedLast (key : String) (ws : List Write) : Bool :=
  (lastWrite key ws).any fun w => w.left?.isNone

theorem removedLast_concat (key : String) (ws : List Write) (w : Write) :
    removedLast key (ws ++ [w]) =
      if w.key = key then w.left?.isNone else removedLast key ws := by
  unfold removedLast
  rw [lastWrite_concat]
  by_cases h : w.key = key <;> simp [h]

/-- Performs writes one after the other, up to the first failure. -/
def Site.performEach (c : Site) : List Write → MapM Repository Unit
  | [] => pure ()
  | w :: ws => do
      discard (c.perform w)
      c.performEach ws

/-- The value in the slot of a key. -/
def cached (d : Dict (Slot Repository)) (key : String) : Option Value :=
  (d.get? key).map (·.value)

theorem cached_set (d : Dict (Slot Repository)) (key other : String)
    (slot : Slot Repository) : cached (d.set key slot) other =
      if key = other then some slot.value else cached d other := by
  unfold cached
  by_cases h : key = other
  · subst h
    simp
  · rw [if_neg h, Dict.get?_set_of_ne _ (Ne.symm h)]

theorem cached_erase (d : Dict (Slot Repository)) (key other : String) :
    cached (d.erase key) other =
      if key = other then none else cached d other := by
  unfold cached
  by_cases h : key = other
  · subst h
    simp [Dict.get?_erase_self]
  · rw [if_neg h, Dict.get?_erase_of_ne _ (Ne.symm h)]

/-- The slots of the types in a map that has read everything, by the
writes since. The primary type is that of the node unless it was
removed. The resource type is what the last write to it left, in the map
as in the node; without one both are as they were at the start. -/
structure Site.TypesTracked (c : Site) (start : NodeState)
    (known : List String) (ws : List Write) (s : MapState Repository) :
    Prop where
  fullyRead : s.cache.fullyRead = true
  sameKnown : c.known s = known
  wellFormed : (contentOf s.world).WellFormed
  primary : cached s.cache.slots primaryTypeName =
    if removedLast primaryTypeName ws then none
    else some ((c.node s).primaryShown known).natural
  resource : match lastWrite resourceTypeName ws with
    | some w => cached s.cache.slots resourceTypeName = w.left? ∧
        (c.node s).resourceStored known = w.left?
    | none => cached s.cache.slots resourceTypeName =
          some ((start.resourceStored known).getD
            (start.primaryShown known).natural) ∧
        (c.node s).resourceStored known = start.resourceStored known

/-- One write keeps track of the types. -/
theorem typesTracked_perform (hw : c.writable = true) {start : NodeState}
    {known : List String} {ws : List Write}
    (hs : c.TypesTracked start known ws s) {w : Write} (htext : w.IsText)
    {old : Option Value} (hrun : c.perform w s = (.ok old, t)) :
    c.TypesTracked start known (ws ++ [w]) t := by
  have hresource := hs.resource
  have hwellFormed : (c.node s).WellFormed := hs.wellFormed c.id
  cases w with
  | put key x =>
    obtain ⟨hk, x, rfl⟩ := htext
    obtain ⟨_, u, hput, hcache, hknown, hwf, hnode⟩ :=
      run_put_text hw hs.wellFormed hs.fullyRead hk x
    rw [show c.perform (.put key (.string x)) s = _ from hput] at hrun
    cases hrun
    rw [hs.sameKnown] at hknown hnode
    refine ⟨by rw [hcache], hknown, hwf, ?_, ?_⟩
    · rw [hcache, hnode, cached_set, primaryShown_withText hwellFormed,
        removedLast_concat, hs.primary]
      by_cases h : key = primaryTypeName <;>
        simp [Write.key, Write.left?, h, pendingSlot]
    · rw [hcache, hnode, cached_set, resourceStored_withText, lastWrite_concat]
      by_cases h : key = resourceTypeName
      · simp [Write.key, Write.left?, h, pendingSlot]
      · simp only [Write.key, h, if_false]
        exact hresource
  | remove key =>
    obtain ⟨hcache, hknown, hwf, hnode⟩ :=
      remove_text hw hs.wellFormed hs.fullyRead htext hrun
    rw [hs.sameKnown] at hknown hnode
    refine ⟨by rw [hcache], hknown, hwf, ?_, ?_⟩
    · rw [hcache, cached_erase, removedLast_concat, hs.primary]
      by_cases h : key = primaryTypeName
      · simp [Write.key, Write.left?, h]
      · rw [hnode, primaryShown_withoutText h]
        simp [Write.key, h]
    · rw [hcache, hnode, cached_erase, resourceStored_withoutText,
        lastWrite_concat]
      by_cases h : key = resourceTypeName
      · simp [Write.key, Write.left?, h]
      · simp only [Write.key, h, if_false]
        exact hresource

theorem typesTracked_performEach (hw : c.writable = true) {start : NodeState}
    {known : List String} {earlier ws : List Write}
    (hs : c.TypesTracked start known earlier s) (htext : ∀ w ∈ ws, w.IsText)
    (hrun : c.performEach ws s = (.ok (), t)) :
    c.TypesTracked start known (earlier ++ ws) t := by
  induction ws generalizing earlier s with
  | nil =>
    cases hrun
    rw [List.append_nil]
    exact hs
  | cons w rest ih =>
    obtain ⟨_, u, hfirst, hrest⟩ := ok_of_run_bind hrun
    obtain ⟨old, hw'⟩ := ok_of_run_discard hfirst
    have hu := typesTracked_perform hw hs (htext w (List.mem_cons_self ..)) hw'
    have ht := ih hu (fun w hw => htext w (List.mem_cons_of_mem _ hw)) hrest
    rwa [List.append_assoc] at ht

-- ======================================================= the start

theorem answer?_resource {n : NodeState} {o : MapOptions}
    {known : List String} (hsyn : o.synthesizeResourceType = true) :
    (n.answer? o known resourceTypeName).map StoredProperty.natural =
      some ((n.resourceStored known).getD
        (n.primaryShown known).natural) := by
  unfold NodeState.resourceStored
  cases hp : n.property? (storageName known resourceTypeName) with
  | none =>
      rw [NodeState.answer?_resourceTypeName hp hsyn]
      rfl
  | some p =>
      rw [NodeState.answer?_of_property? hp]
      rfl

/-- A map that has just read everything holds the types of the node. -/
theorem typesTracked_readFully (hv : c.Readable (c.surroundings s))
    (hsyn : c.options.synthesizeResourceType = true)
    (hs : s.cache = Cache.empty) (hrun : c.map.readFully s = (.ok (), t)) :
    c.TypesTracked (c.node s) (c.known s) [] t := by
  have hlazy := lazy_of_empty (c := c) rfl hs
  rcases readFully_lazy hv hlazy with ⟨hcan, -⟩ | ⟨-, e, u, hfailed⟩
  · obtain ⟨u, hfull, hu, hcache⟩ :=
      readFully_fresh ⟨rfl, hv.wellFormed, hs⟩ hcan
    rw [hrun] at hfull
    cases hfull
    have hcached : ∀ key,
        RoundTrips c.options.legacyPathEncoding (c.known s) key →
        cached t.cache.slots key = ((c.node s).answer? c.options (c.known s)
          key).map StoredProperty.natural := by
      intro key hk
      rw [hcache]
      exact get?_fill hv.node faithful_empty hk
    have hnode : c.node t = c.node s := node_of_surroundings hu
    refine ⟨by rw [hcache], known_of_surroundings hu, ?_, ?_, ?_, ?_⟩
    · rw [content_of_surroundings hu]
      exact hv.wellFormed
    · rw [hcached _ (roundTrips_typeName (by decide) ..), hnode,
        NodeState.answer?_primaryTypeName]
      rfl
    · rw [hcached _ (roundTrips_typeName (by decide) ..), answer?_resource hsyn]
    · rw [hnode]
  · rw [hrun] at hfailed
    cases hfailed

/-- The first of a run of writes reads everything. -/
theorem performEach_of_readFully (hw : c.writable = true) {w : Write}
    (htext : w.IsText) {ws : List Write}
    (hrun : c.performEach (w :: ws) s = (.ok (), t)) :
    ∃ u, c.map.readFully s = (.ok (), u) ∧
      c.performEach (w :: ws) u = (.ok (), t) := by
  have hstart := perform_of_readFully (c := c) (s := s) hw
    htext.textKey.isPlain
  unfold Site.performEach at hrun ⊢
  rw [run_bind, run_discard, hstart] at hrun
  rcases hfull : c.map.readFully s with ⟨e | _, u⟩
  · rw [hfull] at hrun
    cases hrun
  · rw [hfull] at hrun
    refine ⟨u, rfl, ?_⟩
    rw [run_bind, run_discard]
    exact hrun

-- ======================================================= comparison

/-- What a fresh map finds as the types of a node. -/
theorem types_fresh (hsyn : c.options.synthesizeResourceType = true)
    (hwf : (contentOf t.world).WellFormed) :
    (c.reader.map.get? primaryTypeName { t with cache := .empty }).1 =
        .ok (some ((c.node t).primaryShown (c.known t)).natural) ∧
      (c.reader.map.get? resourceTypeName { t with cache := .empty }).1 =
        .ok (some (((c.node t).resourceStored (c.known t)).getD
          ((c.node t).primaryShown (c.known t)).natural)) := by
  have hfresh : c.reader.Fresh (c.surroundings t)
      { t with cache := .empty } := ⟨rfl, hwf, rfl⟩
  constructor
  · rw [get?_fresh hfresh (by decide) (by decide),
      NodeState.answer?_primaryTypeName]
    rfl
  · rw [get?_fresh hfresh (by decide) (by decide)]
    exact congrArg Except.ok (answer?_resource hsyn)

/-- What the map itself finds after a run of writes. -/
theorem types_found (hw : c.writable = true)
    (hsyn : c.options.synthesizeResourceType = true)
    (hv : c.Readable (c.surroundings s)) (hs : s.cache = Cache.empty)
    {ws : List Write} (hws : ∀ w ∈ ws, w.IsText)
    (hrun : c.performEach ws s = (.ok (), t)) :
    c.known t = c.known s ∧ (contentOf t.world).WellFormed ∧
    ∃ primary resource,
      (c.map.get? primaryTypeName t).1 = .ok primary ∧
      (c.map.get? resourceTypeName t).1 = .ok resource ∧
      (primary = if removedLast primaryTypeName ws then none
        else some ((c.node t).primaryShown (c.known s)).natural) ∧
      match lastWrite resourceTypeName ws with
      | some w => resource = w.left? ∧
          (c.node t).resourceStored (c.known s) = w.left?
      | none => resource =
            some (((c.node s).resourceStored (c.known s)).getD
              ((c.node s).primaryShown (c.known s)).natural) ∧
          (c.node t).resourceStored (c.known s) =
            (c.node s).resourceStored (c.known s) := by
  cases ws with
  | nil =>
    -- Nothing has been read either, so the map is still fresh.
    cases hrun
    have hfresh : c.Fresh (c.surroundings s) s := ⟨rfl, hv.wellFormed, hs⟩
    refine ⟨rfl, hv.wellFormed, _, _, get?_fresh hfresh (by decide) (by decide),
      get?_fresh hfresh (by decide) (by decide), ?_, ?_, rfl⟩
    · rw [NodeState.answer?_primaryTypeName]
      rfl
    · exact answer?_resource hsyn
  | cons w rest =>
    obtain ⟨u, hfull, hrest⟩ :=
      performEach_of_readFully hw (hws w (List.mem_cons_self ..)) hrun
    have ht := typesTracked_performEach hw
      (typesTracked_readFully hv hsyn hs hfull) hws hrest
    have hget : ∀ key, IsPlain key → (c.map.get? key t).1 =
        .ok (cached t.cache.slots (plainKey key)) := by
      intro key hk
      rw [get?_of_fullyRead ht.fullyRead hk]
      rfl
    exact ⟨ht.sameKnown, ht.wellFormed, _, _, hget _ (by decide),
      hget _ (by decide), ht.primary, ht.resource⟩

/-- What a map and a fresh map find as the types of a node, after any run
of puts of strings and removes that all succeed. The primary types agree
unless the last write to that key was a remove. The resource types agree
unless theirs was a remove, or none is stored and the primary type is no
longer what it was when the map was made. -/
theorem types_after_writes (c : Site) (hw : c.writable = true)
    (hsyn : c.options.synthesizeResourceType = true)
    (s : MapState Repository) (hwf : s.world.repo.WellFormed)
    (hcanonical : ∀ p ∈ (s.world.repo.nodes c.id).allProperties,
      Canonical c.options.legacyPathEncoding (c.known s) p.name)
    (hs : s.cache = Cache.empty) (ws : List Write)
    (hws : ∀ w ∈ ws, w.IsText) {t : MapState Repository}
    (hrun : c.performEach ws s = (.ok (), t)) :
    ∃ start primary resource primary' resource',
      (c.map.get? primaryTypeName s).1 = .ok (some start) ∧
      (c.map.get? primaryTypeName t).1 = .ok primary ∧
      (c.map.get? resourceTypeName t).1 = .ok resource ∧
      (c.reader.map.get? primaryTypeName { t with cache := .empty }).1 =
        .ok (some primary') ∧
      (c.reader.map.get? resourceTypeName { t with cache := .empty }).1 =
        .ok (some resource') ∧
      (primary = some primary' ↔ removedLast primaryTypeName ws = false) ∧
      (resource = some resource' ↔
        removedLast resourceTypeName ws = false ∧
        (((c.node t).property?
            (storageName (c.known t) resourceTypeName)).isSome ∨
          primary' = start)) := by
  have hv : c.Readable (c.surroundings s) :=
    ⟨Repository.wellFormed_content.2 hwf, hcanonical⟩
  have hfresh : c.Fresh (c.surroundings s) s := ⟨rfl, hv.wellFormed, hs⟩
  obtain ⟨hknown, hwf', primary, resource, hprimary, hresource, hp, hr⟩ :=
    types_found hw hsyn hv hs hws hrun
  obtain ⟨hprimary', hresource'⟩ := types_fresh hsyn hwf'
  have hstart : (c.map.get? primaryTypeName s).1 =
      .ok (some ((c.node s).primaryShown (c.known s)).natural) := by
    rw [get?_fresh hfresh (by decide) (by decide),
      NodeState.answer?_primaryTypeName]
    rfl
  refine ⟨_, primary, resource, _, _, hstart, hprimary, hresource, hprimary',
    hresource', ?_, ?_⟩
  · rw [hp, hknown]
    cases removedLast primaryTypeName ws <;> simp
  · have hstored : ((c.node t).property?
        (storageName (c.known s) resourceTypeName)).isSome =
          ((c.node t).resourceStored (c.known s)).isSome := by
      rw [NodeState.resourceStored, Option.isSome_map]
    rw [hknown, hstored]
    unfold removedLast
    cases hlast : lastWrite resourceTypeName ws with
    | some w =>
        -- It left the same in the map and in the node.
        rw [hlast] at hr
        obtain ⟨rfl, hleft⟩ := hr
        rw [hleft]
        cases hw : w.left? <;> simp [hw]
    | none =>
        -- The map has what it read at the start, be it stored or derived.
        rw [hlast] at hr
        obtain ⟨rfl, hsame⟩ := hr
        rw [hsame]
        cases (c.node s).resourceStored (c.known s) with
        | some x => simp
        | none => simp [eq_comm]

/-- In the sample both types are written. The map and a fresh one then find
the same under each. -/
theorem types_after_writes_to_sample :
    ∃ t primary resource,
      Site.sample.performEach [.put primaryTypeName (.string "nt:folder"),
          .put resourceTypeName (.string "app/page")] Site.sampleState =
        (.ok (), t) ∧
      (Site.sample.map.get? primaryTypeName t).1 = .ok (some primary) ∧
      (Site.sample.reader.map.get? primaryTypeName
        { t with cache := .empty }).1 = .ok (some primary) ∧
      (Site.sample.map.get? resourceTypeName t).1 = .ok (some resource) ∧
      (Site.sample.reader.map.get? resourceTypeName
        { t with cache := .empty }).1 = .ok (some resource) := by
  obtain ⟨t, hrun, hstored⟩ : ∃ t, Site.sample.performEach
      [.put primaryTypeName (.string "nt:folder"),
        .put resourceTypeName (.string "app/page")] Site.sampleState =
        (.ok (), t) ∧
      ((Site.sample.node t).property? (storageName (Site.sample.known t)
        resourceTypeName)).isSome = true := ⟨_, rfl, rfl⟩
  have htext : ∀ w ∈ [Write.put primaryTypeName (.string "nt:folder"),
      .put resourceTypeName (.string "app/page")], w.IsText := by
    intro w hw
    rcases List.mem_cons.1 hw with rfl | hw
    · exact ⟨⟨by decide, by decide, by decide⟩, _, rfl⟩
    · rw [List.mem_singleton.1 hw]
      exact ⟨⟨by decide, by decide, by decide⟩, _, rfl⟩
  obtain ⟨_, primary, resource, primary', resource', -, hp, hr, hp', hr',
    hprimary, hresource⟩ := types_after_writes Site.sample rfl rfl
      Site.sampleState Repository.wellFormed_sample canonical_sample rfl _
      htext hrun
  rw [hprimary.2 rfl] at hp
  rw [hresource.2 ⟨rfl, .inl hstored⟩] at hr
  exact ⟨t, primary', resource', hrun, hp, hp', hr, hr'⟩

/-- After a put of the primary type the map finds the former one as the
resource type, and a fresh map the new one. -/
theorem resource_type_outlives_primary_type :
    ∃ t, Site.sample.performEach
        [.put primaryTypeName (.string "nt:folder")] Site.sampleState =
        (.ok (), t) ∧
      (Site.sample.map.get? resourceTypeName t).1 =
        .ok (some (.string "nt:unstructured")) ∧
      (Site.sample.reader.map.get? resourceTypeName
        { t with cache := .empty }).1 = .ok (some (.string "nt:folder")) :=
  ⟨_, rfl, rfl, rfl⟩

end ContentProperties.Memory
