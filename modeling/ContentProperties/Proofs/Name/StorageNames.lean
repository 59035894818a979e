/-
Storage names of keys, as a function of the key and of the prefixes that
are registered. A key that is no path has a storage name that is no path
either, so it is looked up in the node itself; keys are told by their
storage names (`storageName_injective`); and the names that show types
are the storage names of no other keys.

A stored name is canonical when it is the storage name of its key. Among
canonical names no two have one key, which is what makes reading one
property and reading all of them agree.
-/
import ContentProperties.Map.PropertyMap
import ContentProperties.Proofs.Name.Escaping
import Mathlib.Data.List.TakeWhile

namespace ContentProperties

namespace PropertyMap

-- ======================================================= storage names

/-- The storage name of a key while the given prefixes are registered. -/
def storageName (known : List String) (key : String) : String :=
  match splitPrefix? key with
  | none => Name.escape key
  | some (front, local_) =>
      if known.contains front then front ++ ":" ++ Name.escape local_
      else Name.escape key

/-- A stored name that is the storage name of its key. -/
def Canonical (legacy : Bool) (known : List String) (name : String) : Prop :=
  storageName known (decodeName legacy name) = name

/-- A key that is the key of its storage name. -/
def RoundTrips (legacy : Bool) (known : List String) (key : String) : Prop :=
  decodeName legacy (storageName known key) = key

/-- The parts of a key make it up, and the front part holds no colon. -/
theorem of_splitPrefix? {key front local_ : String}
    (h : splitPrefix? key = some (front, local_)) :
    key = front ++ ":" ++ local_ ∧ ':' ∉ front.toList := by
  unfold splitPrefix? at h
  dsimp only at h
  split at h
  · next c rest hrest =>
    split at h
    · cases h
    cases h
    have hcolon : c = ':' := by
      have hhead := List.head?_dropWhile_not (· != ':') key.toList
      rw [hrest] at hhead
      simpa using hhead
    subst hcolon
    constructor
    · apply String.toList_injective
      simp only [String.toList_append, String.toList_ofList]
      rw [show ":".toList = [':'] from rfl, List.append_assoc,
        List.singleton_append, ← hrest, List.takeWhile_append_dropWhile]
    · rw [String.toList_ofList]
      intro hmem
      simpa using List.mem_takeWhile_imp hmem
  · cases h

/-- A storage name is the escaped key, or the key with its local part
escaped. -/
theorem storageName_cases (known : List String) (key : String) :
    storageName known key = Name.escape key ∨
    ∃ front local_, key = front ++ ":" ++ local_ ∧ ':' ∉ front.toList ∧
      storageName known key = front ++ ":" ++ Name.escape local_ := by
  unfold storageName
  split
  · exact .inl rfl
  · next front local_ hsplit =>
    by_cases h : known.contains front = true
    · obtain ⟨hkey, hfront⟩ := of_splitPrefix? hsplit
      exact .inr ⟨front, local_, hkey, hfront, if_pos h⟩
    · exact .inl (if_neg h)

theorem slash_not_mem_storageName (known : List String) {key : String}
    (h : isPath key = false) : '/' ∉ (storageName known key).toList := by
  have hescape : ∀ name, '/' ∉ (Name.escape name).toList :=
    Name.not_mem_escape (by decide) (by decide)
  rcases storageName_cases known key with hname | ⟨front, local_, rfl, -, hname⟩
  · rw [hname]
    exact hescape key
  · -- the front part is taken from the key as it is
    have hfront : '/' ∉ front.toList := by
      intro hmem
      simp [isPath, hmem] at h
    rw [hname]
    simp only [String.toList_append, List.mem_append, not_or]
    exact ⟨⟨hfront, by decide⟩, hescape local_⟩

/-- A name with a colon in it is split at the first one in one way
only. -/
theorem split_colon_inj {a b x y : String} (ha : ':' ∉ a.toList)
    (hb : ':' ∉ b.toList) (h : a ++ ":" ++ x = b ++ ":" ++ y) :
    a = b ∧ x = y := by
  have hfront : ∀ (cs rest : List Char), ':' ∉ cs →
      (cs ++ ':' :: rest).takeWhile (· != ':') = cs := by
    intro cs rest hcs
    rw [List.takeWhile_append_of_pos]
    · simp
    · intro c hc
      simpa using fun heq : c = ':' => hcs (heq ▸ hc)
  have hlists := congrArg String.toList h
  simp only [String.toList_append, show ":".toList = [':'] from rfl,
    List.append_assoc, List.singleton_append] at hlists
  have hab : a.toList = b.toList := by
    rw [← hfront _ x.toList ha, hlists, hfront _ y.toList hb]
  rw [hab] at hlists
  exact ⟨String.toList_injective hab, String.toList_injective
    (List.cons.inj (List.append_cancel_left hlists)).2⟩

theorem escape_ne_prefixed (key front local_ : String) :
    Name.escape key ≠ front ++ ":" ++ local_ := by
  intro h
  refine Name.not_mem_escape (c := ':') (by decide) (by decide) key ?_
  rw [h]
  simp

/-- A storage name with a prefix tells its key: an escaped key holds no
colon, and what is escaped can be read back. -/
theorem eq_of_storageName_eq_prefixed {known : List String}
    {key front local_ : String} (hfront : ':' ∉ front.toList)
    (h : storageName known key = front ++ ":" ++ Name.escape local_) :
    key = front ++ ":" ++ local_ := by
  rcases storageName_cases known key with hname | ⟨f, x, rfl, hf, hname⟩
  · exact (escape_ne_prefixed _ _ _ (hname.symm.trans h)).elim
  · obtain ⟨rfl, hlocal⟩ := split_colon_inj hf hfront (hname.symm.trans h)
    rw [Name.escape_injective hlocal]

/-- Keys are told by their storage names. -/
theorem storageName_injective (known : List String) :
    Function.Injective (storageName known) := by
  intro a b h
  rcases storageName_cases known b with hb | ⟨front, local_, rfl, hf, hb⟩
  · rcases storageName_cases known a with ha | ⟨f, x, rfl, -, ha⟩
    · exact Name.escape_injective (ha.symm.trans (h.trans hb))
    · exact (escape_ne_prefixed _ _ _ (hb.symm.trans (h.symm.trans ha))).elim
  · exact eq_of_storageName_eq_prefixed hf (h.trans hb)

/-- Under canonical names the key of a name tells the name. -/
theorem Canonical.inj {legacy : Bool} {known : List String}
    {a b : String} (ha : Canonical legacy known a)
    (hb : Canonical legacy known b)
    (h : decodeName legacy a = decodeName legacy b) : a = b := by
  rw [← ha, h, hb]

-- ================================================== the names of types

/-- The names that show types. -/
def typeNames : List String :=
  [primaryTypeName, mixinTypesName, resourceTypeName]

/-- Each of these names has a prefix, and no other part that would be
escaped. -/
theorem exists_prefix_of_typeName {name : String} (h : name ∈ typeNames) :
    ∃ front local_, splitPrefix? name = some (front, local_) ∧
      name = front ++ ":" ++ Name.escape local_ := by
  have hall : ∀ name ∈ typeNames, (splitPrefix? name).map
      (fun parts => parts.1 ++ ":" ++ Name.escape parts.2) = some name := by
    decide +kernel
  obtain ⟨⟨front, local_⟩, hsplit, hname⟩ :=
    Option.map_eq_some_iff.1 (hall name h)
  exact ⟨front, local_, hsplit, hname.symm⟩

/-- The types are found and cached under their own keys, whether their
prefixes are registered or not. -/
theorem roundTrips_typeName {name : String} (h : name ∈ typeNames)
    (legacy : Bool) (known : List String) : RoundTrips legacy known name := by
  have hplain : ∀ name ∈ typeNames, decodeName legacy name = name := by
    cases legacy <;> decide +kernel
  have hescaped : ∀ name ∈ typeNames,
      decodeName legacy (Name.escape name) = name := by
    cases legacy <;> decide +kernel
  obtain ⟨front, local_, hsplit, hname⟩ := exists_prefix_of_typeName h
  unfold RoundTrips storageName
  rw [hsplit]
  dsimp only
  split
  · rw [← hname]
    exact hplain name h
  · exact hescaped name h

/-- Only the keys of types have the names of types for storage names. -/
theorem storageName_ne_typeName {name : String} (h : name ∈ typeNames)
    (known : List String) {key : String} (hkey : key ≠ name) :
    storageName known key ≠ name := by
  obtain ⟨front, local_, hsplit, hname⟩ := exists_prefix_of_typeName h
  obtain ⟨hparts, hfront⟩ := of_splitPrefix? hsplit
  intro heq
  have hkeyparts : key = front ++ ":" ++ local_ :=
    eq_of_storageName_eq_prefixed hfront (heq.trans hname)
  exact hkey (hkeyparts.trans hparts.symm)

/-- A key for a property that shows no type. It is the key of its storage
name. -/
structure PropertyKey (legacy : Bool) (known : List String)
    (key : String) : Prop where
  nonempty : key ≠ ""
  noPath : isPath key = false
  notPrimary : key ≠ primaryTypeName
  notMixins : key ≠ mixinTypesName
  notResource : key ≠ resourceTypeName
  roundTrips : RoundTrips legacy known key

/-- The storage name of the key of a property is not protected. -/
theorem PropertyKey.storageName_ne {legacy : Bool} {known : List String}
    {key : String} (h : PropertyKey legacy known key) :
    storageName known key ≠ primaryTypeName ∧
      storageName known key ≠ mixinTypesName :=
  ⟨storageName_ne_typeName (by decide) known h.notPrimary,
    storageName_ne_typeName (by decide) known h.notMixins⟩

end PropertyMap

end ContentProperties
