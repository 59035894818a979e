/-
Strings that are written, under any key but that of the mixin types. A
string has a stored form and no node refuses one, so that the put
succeeds (`put_text`): the key of the primary type changes that while
its prefix is registered, and every other key sets one property.

Here the key need not be that of its storage name. The cache is changed
under the key, the node under the storage name, and it is left open what
a reader makes of the two.
-/
import ContentProperties.Proofs.Map.NodeWrites

namespace ContentProperties.Memory

open PropertyMap

variable {c : Site} {v : Surroundings} {s t : MapState Repository}

-- ============================================================ the node

/-- The node with a string written under a storage name. -/
def NodeState.withText (n : NodeState) (name x : String) : NodeState :=
  if name = primaryTypeName then { n with primaryType := x }
  else n.withProperty (.single name .string (.string x))

theorem NodeState.property?_withText_self (n : NodeState) {name : String}
    (hp : name ≠ primaryTypeName) (hm : name ≠ mixinTypesName) (x : String) :
    (n.withText name x).property? name =
      some (.single name .string (.string x)) := by
  rw [withText, if_neg hp]
  exact n.property?_withProperty_self hp hm

theorem NodeState.property?_withText_of_ne (n : NodeState)
    {name other : String} (h : other ≠ name) (x : String) :
    (n.withText name x).property? other = n.property? other := by
  unfold withText
  by_cases hp : name = primaryTypeName
  · subst hp
    rw [if_pos rfl, property?, property?, typeProperty?, typeProperty?,
      if_neg h, if_neg h]
  · rw [if_neg hp]
    exact n.property?_withProperty_of_ne h

/-- What writing a string under a storage name asks for. -/
def textChange (name x : String) : Change :=
  if name = primaryTypeName then .primaryType x
  else .property name (.string x)

theorem NodeState.WellFormed.withText {n : NodeState} (hn : n.WellFormed)
    {name : String} (hm : name ≠ mixinTypesName) (x : String) :
    (n.withText name x).WellFormed := by
  unfold NodeState.withText
  by_cases hp : name = primaryTypeName
  · rw [if_pos hp]
    exact hn.congr rfl
  · rw [if_neg hp]
    exact hn.withProperty hp hm fun _ => ⟨_, rfl⟩

theorem run_changeFor_text {name : String} (hm : name ≠ mixinTypesName)
    (x : String) (w : World Repository) :
    c.map.changeFor name (pendingSlot (.string x)).entry w =
      (.ok (textChange name x), w) := by
  unfold changeFor textChange
  rw [if_neg hm]
  by_cases hp : name = primaryTypeName
  · rw [if_pos hp, if_pos hp]
    rfl
  · rw [if_neg hp, if_neg hp]
    rfl

/-- A node makes every change that a string asks for. -/
theorem run_apply_text {name : String} (hm : name ≠ mixinTypesName)
    (x : String) (w : World Repository) :
    ∃ u, (textChange name x).apply c.map.node w = (.ok (), u) ∧
      contentOf u =
        (contentOf w).modifyNode c.id (·.withText name x) := by
  have hcount := keeps_count c.id
    (fun n => { n with writes := n.writes + 1 }) w
  have hchanged : ∀ f : NodeState → NodeState,
      (∀ n, (f n).content = f n.content) →
      contentOf (changeNode c.id f (countWrite c.id w).2).2 =
        (contentOf w).modifyNode c.id f := by
    intro f hf
    show ((countWrite c.id w).2.repo.modifyNode c.id f).content = _
    rw [Repository.content_modifyNode c.id f hf]
    exact congrArg (Repository.modifyNode c.id f) hcount
  unfold textChange NodeState.withText
  by_cases hp : name = primaryTypeName
  · simp only [if_pos hp]
    exact ⟨_, rfl, hchanged _ fun _ => rfl⟩
  · simp only [if_neg hp]
    refine ⟨_, ?_, hchanged _ fun _ => rfl⟩
    show (checkWritable name >>= _) w = _
    rw [run_bind_of_ok (run_checkWritable hp hm w)]
    rfl

-- ============================================================= the map

/-- Preparing the write of a string yields what it asks for, and is not
observed. -/
theorem run_prepare_text (hs : c.surroundings s = v) {key : String}
    (hm : storageName v.known key ≠ mixinTypesName) (x : String) :
    ∃ t, c.map.prepare key (.string x) s =
        (.ok ((pendingSlot (.string x)).entry,
          textChange (storageName v.known key) x), t) ∧
      c.observed t = c.observed s :=
  run_prepare hs (fun _ => rfl) (run_changeFor_text hm x)

/-- Committing it changes the node. -/
theorem run_commit_text (hs : c.surroundings s = v) {name : String}
    (hm : name ≠ mixinTypesName) (key x : String) :
    ∃ t, c.map.commit key (.string x) (textChange name x) s = (.ok (), t) ∧
      c.surroundings t =
        ⟨v.repo.modifyNode c.id (·.withText name x), v.known⟩ := by
  obtain ⟨u, happly, hcontent⟩ := run_apply_text (c := c) hm x s.world
  have hattempt : MapM.attempt ((textChange name x).apply c.map.node) s =
      (.ok (.ok ()), { s with world := u }) := by
    rw [MapM.run_attempt, happly]
  subst hs
  refine ⟨{ s with world := u }, ?_, surroundings_of_content hcontent rfl⟩
  unfold commit
  rw [run_bind_of_ok hattempt]
  rfl

/-- Putting a string into a map that has read everything succeeds, and
changes the slot of the key and the node under its storage name. -/
theorem put_text (hw : c.writable = true) (hs : c.surroundings s = v)
    (hread : s.cache.fullyRead = true) {key : String} (hne : key ≠ "")
    (hpath : isPath key = false)
    (hm : storageName v.known key ≠ mixinTypesName) (x : String) :
    ∃ old t, c.map.put key (.string x) s = (.ok old, t) ∧
      t.cache = ⟨s.cache.slots.set key (pendingSlot (.string x)), true⟩ ∧
      c.surroundings t = ⟨v.repo.modifyNode c.id
        (·.withText (storageName v.known key) x), v.known⟩ := by
  have hkey := plainKey_of_not_isPath hpath
  have hplain : IsPlain key := isPlain_of_not_isPath hne hpath
  obtain ⟨u, hprepared, hu⟩ := run_prepare_text hs hm x
  have huv : c.surroundings u = v := (congrArg Prod.snd hu).trans hs
  obtain ⟨t, hcommitted, ht⟩ := run_commit_text huv hm key x
  -- Of the ways a put can end, preparing or committing it has not failed.
  rcases put_cases (m := c.map) hw hread hplain (.string x) with
    ⟨_, _, hrun, -⟩ | ⟨_, _, _, _, _, hrun, hfailed, -⟩ |
    ⟨_, _, _, _, hrun, hdone, hput⟩
  · rw [hkey, hprepared] at hrun
    cases hrun
  · rw [hkey, hprepared] at hrun
    cases hrun
    rw [hkey, hcommitted] at hfailed
    cases hfailed
  · rw [hkey, hprepared] at hrun
    cases hrun
    rw [hkey, hcommitted] at hdone
    cases hdone
    rw [hkey] at hput
    exact ⟨_, _, hput, rfl, ht⟩

end ContentProperties.Memory
