/-
Reading along a path and reading at its end. A key behind the names of
children is looked up on the way down, by a map over any node above; the
same key can be asked of a map over the last node. The two use different
codecs. Along a path the key is looked up in the older encoding first,
if that is wanted, and else wholly escaped; a map over the node spares a
registered prefix from escaping.

So the path leads to the property that the key is stored under if one of
the two codecs of paths yields its storage name, and the other does not
find something else before (`path_read_agrees_iff`).
-/
import ContentProperties.Proofs.Map.FreshReads
import ContentProperties.Proofs.Name.Words

namespace ContentProperties.Memory

open PropertyMap Name

-- ======================================================= down the nodes

/-- No word is skipped on the way down. -/
theorem ne_of_isWord {name : String} (h : IsWord name) :
    name ≠ "" ∧ name ≠ "." := by
  refine ⟨h.nonempty, ?_⟩
  rintro rfl
  exact h.not_mem (c := '.') (by decide) (by decide)

section Paths

variable {c : Site} {s t : MapState Repository} {names : List String}
variable {key : String} {owner : Nat}

/-- What a path finds under a key of the node it ends at. -/
def Site.atPath? (c : Site) (n : NodeState) (key : String) :
    Option StoredProperty :=
  if c.options.legacyPathEncoding then
    match n.property? (encodeLast key) with
    | some p => some p
    | none => n.property? (escape key)
  else n.property? (escape key)

/-- Both encodings of a path lead down to the same node. -/
theorem resolve?_pathTo (r : Repository) (hnames : ∀ name ∈ names, IsWord name)
    (hkey : '/' ∉ key.toList) (howner : r.descend? c.id names = some owner) :
    c.resolve? r (pathTo names key) = c.atPath? (r.nodes owner) key := by
  have hwords : ∀ name ∈ names, name ≠ "" ∧ name ≠ "." :=
    fun name hname => ne_of_isWord (hnames name hname)
  have hescaped : r.resolve? c.id (escapePath (pathTo names key)) =
      (r.nodes owner).property? (escape key) := by
    rw [r.resolve?_of_segments c.id hwords
      (segments_escapePath_pathTo hnames hkey), howner, Option.bind_some]
  have hencoded : r.resolve? c.id (encodePath (pathTo names key)) =
      (r.nodes owner).property? (encodeLast key) := by
    rw [r.resolve?_of_segments c.id hwords
      (segments_encodePath_pathTo hnames hkey), howner, Option.bind_some]
  unfold Site.resolve? Site.atPath?
  dsimp only
  rw [hencoded, hescaped]
  split
  · cases hfound : (r.nodes owner).property? (encodeLast key) with
    | some p => rfl
    | none =>
      -- Where the two forms are one, there is nothing left to look for.
      by_cases hsame : encodePath (pathTo names key) =
          escapePath (pathTo names key)
      · rw [hsame, hescaped] at hencoded
        rw [if_pos hsame, hencoded, hfound]
      · rw [if_neg hsame]
  · rfl

-- ============================================================ the reads

theorem toList_pathTo_cons (name : String) (names : List String)
    (last : String) : (pathTo (name :: names) last).toList =
      name.toList ++ '/' :: (pathTo names last).toList := by
  simp only [pathTo, String.toList_ofList, List.map_cons, List.cons_append]
  exact joinSegments_cons (by simp)

/-- A path over words is one, and does not start with a dot. -/
theorem isPath_pathTo (hne : names ≠ [])
    (hnames : ∀ name ∈ names, IsWord name) (last : String) :
    isPath (pathTo names last) = true ∧
      plainKey (pathTo names last) = pathTo names last := by
  obtain ⟨name, rest, rfl⟩ := List.exists_cons_of_ne_nil hne
  have hpath := toList_pathTo_cons name rest last
  refine ⟨by simp [isPath, hpath], ?_⟩
  unfold plainKey
  split
  · next more hdot =>
    have hword := hnames name List.mem_cons_self
    obtain ⟨c, front, hname⟩ := List.exists_cons_of_ne_nil
      (fun hnil => hword.nonempty (String.toList_eq_nil_iff.1 hnil))
    rw [hpath, hname, List.cons_append, List.cons.injEq] at hdot
    have hc := hword.letters c (by rw [hname]; exact List.mem_cons_self)
    rw [hdot.1] at hc
    exact absurd hc (by decide)
  · rfl

/-- Reading along a path finds what it leads to, and caches nothing. -/
theorem get?_pathTo (hs : (contentOf s.world).WellFormed) (hne : names ≠ [])
    (hnames : ∀ name ∈ names, IsWord name) (hkey : '/' ∉ key.toList)
    (howner : (contentOf s.world).descend? c.id names = some owner) :
    ∃ w, contentOf w = contentOf s.world ∧
      c.map.get? (pathTo names key) s =
        (.ok ((c.atPath? ((contentOf s.world).nodes owner) key).map
          StoredProperty.natural), { s with world := w }) := by
  obtain ⟨hpath, hplain⟩ := isPath_pathTo hne hnames key
  have hempty : pathTo names key ≠ "" := by
    intro h
    rw [h] at hpath
    exact absurd hpath (by decide)
  obtain ⟨w, hw, hrun⟩ := run_readPath (c := c) hs (pathTo names key)
  refine ⟨w, hw, ?_⟩
  rw [resolve?_pathTo _ hnames hkey howner] at hrun
  unfold get? PropertyMap.read
  rw [hplain, if_neg hempty, if_pos hpath, run_bind_of_ok hrun, run_pure,
    Option.map_map]
  rfl

/-- Whether a path finds what a key of its last node is stored under. The
storage name is the key in its older encoded form and that is tried, or
the escaped key; in the latter case the older form must not be that of
something else. -/
def Site.ReachedByPath (c : Site) (n : NodeState) (known : List String)
    (key : String) : Prop :=
  (c.options.legacyPathEncoding = true ∧
    storageName known key = encodeLast key) ∨
  (storageName known key = escape key ∧
    (c.options.legacyPathEncoding = true →
      decodeName true (encodeLast key) = key ∨
        n.property? (encodeLast key) = none))

/-- A path finds a property exactly if its storage name is reached, as long
as no other name has the key. -/
theorem atPath?_eq_some_iff {n : NodeState} (hn : n.WellFormed)
    {known : List String} {p : StoredProperty}
    (hp : n.property? (storageName known key) = some p)
    (hunique : ∀ q ∈ n.allProperties,
      decodeName c.options.legacyPathEncoding q.name = key → q = p) :
    c.atPath? n key = some p ↔ c.ReachedByPath n known key := by
  -- Stored under two names, a property would be two.
  have hname : ∀ {name : String}, n.property? name = some p ↔
      storageName known key = name := by
    intro name
    refine ⟨fun h => ?_, fun h => h ▸ hp⟩
    rw [← (hn.of_property?_eq_some hp).1, (hn.of_property?_eq_some h).1]
  unfold Site.atPath? Site.ReachedByPath
  cases hlegacy : c.options.legacyPathEncoding with
  | false => simp [hname]
  | true =>
    rw [hlegacy] at hunique
    cases hfound : n.property? (encodeLast key) with
    | none =>
      have hother : storageName known key ≠ encodeLast key := by
        intro h
        rw [← h, hp] at hfound
        cases hfound
      simp [hname, hother]
    | some q =>
      by_cases heq : storageName known key = encodeLast key
      · rw [← heq, hp] at hfound
        simp [heq, ← hfound]
      · -- Something else is found, and it does not have the key.
        have hne : q ≠ p := by
          rintro rfl
          exact heq (hname.1 hfound)
        obtain ⟨hqname, -⟩ := hn.of_property?_eq_some hfound
        have hmem : q ∈ n.allProperties := by
          rw [hn.mem_allProperties_iff, hqname, hfound]
        have hdecoded : decodeName true (encodeLast key) ≠ key := by
          intro h
          rw [← hqname] at h
          exact hne (hunique q hmem h)
        simp [heq, hne, hdecoded]

end Paths

/-- Reading along a path and reading at its end. A path leads from a node
over children, whose names are words, to a key of the last one, which has
a property stored under the storage name of the key and no other under a
name of that key. A fresh map over the last node finds the property. A
map over the first one, whatever it has cached, finds what the path leads
to; and that is the property exactly if the path reaches its name. -/
theorem path_read_agrees_iff (c : Site) (s t : MapState Repository)
    (hwf : s.world.repo.WellFormed) (names : List String) (hne : names ≠ [])
    (hnames : ∀ name ∈ names, IsWord name) (owner : Nat)
    (howner : s.world.repo.descend? c.id names = some owner) (key : String)
    (hkey : key ≠ "") (hpath : isPath key = false) (p : StoredProperty)
    (hp : (s.world.repo.nodes owner).property?
      (storageName (c.known s) key) = some p)
    (hunique : ∀ q ∈ (s.world.repo.nodes owner).allProperties,
      decodeName c.options.legacyPathEncoding q.name = key → q = p)
    (ht : t.cache = Cache.empty) (hsame : c.surroundings t = c.surroundings s) :
    let last : Site := { c with id := owner }
    let own := s.world.repo.nodes owner
    (last.map.get? key t).1 = .ok (some p.natural) ∧
    ∃ u, c.map.get? (pathTo names key) s =
        (.ok ((c.atPath? own key).map StoredProperty.natural), u) ∧
      u.cache = s.cache ∧
      (c.atPath? own key = some p ↔ c.ReachedByPath own (c.known s) key) ∧
      (c.ReachedByPath own (c.known s) key →
        (c.map.get? (pathTo names key) s).1 = (last.map.get? key t).1) := by
  intro last own
  have hcontent : (contentOf s.world).WellFormed :=
    Repository.wellFormed_content.2 hwf
  have hslash : '/' ∉ key.toList := by
    simpa [isPath] using hpath
  have hread : (last.map.get? key t).1 = .ok (some p.natural) := by
    have hfresh : last.Fresh (c.surroundings s) t :=
      ⟨hsame, hcontent, ht⟩
    have hanswer : ((contentOf s.world).nodes owner).answer? c.options
        (c.known s) key = some p := NodeState.answer?_of_property? hp
    exact (get?_fresh hfresh hkey hpath).trans (by
      rw [show (((c.surroundings s).repo.nodes last.id).answer? last.options
        (c.surroundings s).known key) = some p from hanswer]
      rfl)
  have hiff := atPath?_eq_some_iff (c := c) (hwf owner) hp hunique
  obtain ⟨w, -, hrun⟩ := get?_pathTo (c := c) hcontent hne hnames hslash
    ((Repository.descend?_content _ _ _).trans howner)
  -- Counters are all that sets the node apart from its content.
  have hown : c.atPath? ((contentOf s.world).nodes owner) key =
      c.atPath? own key := rfl
  rw [hown] at hrun
  refine ⟨hread, _, hrun, rfl, hiff, fun hreached => ?_⟩
  rw [congrArg Prod.fst hrun, hread, hiff.2 hreached]
  rfl

-- =============================================================== samples

/-- A title, stored under the given name. -/
def titleUnder (name : String) : StoredProperty :=
  .single name .string (.string "T")

/-- Nothing is read yet of a node that has a child with a title. -/
def childWithTitle (name : String) : MapState Repository :=
  ⟨.empty, none, ⟨.empty, (((Repository.empty.newNode "/" 0).2.addChild 0
    "c").2).withProperty 1 (titleUnder name)⟩⟩

/-- A map over the node or its child, with the older encoding or without
it. -/
def Site.ofChild (legacy : Bool) (id : Nat) : Site :=
  ⟨id, 0, ⟨⟨legacy, 2048, true, true⟩, none⟩, false⟩

theorem wellFormed_childWithTitle {name : String}
    (hp : name ≠ primaryTypeName) (hm : name ≠ mixinTypesName) :
    (childWithTitle name).world.repo.WellFormed :=
  ((Repository.wellFormed_empty.newNode "/" 0).addChild 0 "c").withProperty 1
    hp hm fun _ => ⟨_, rfl⟩

/-- Besides its title the child shows its type only. -/
theorem eq_title_of_mem {name key : String} {legacy : Bool}
    (htype : decodeName legacy primaryTypeName ≠ key) :
    ∀ q ∈ ((childWithTitle name).world.repo.nodes 1).allProperties,
      decodeName legacy q.name = key → q = titleUnder name := by
  intro q hq hkey
  have hlist : ((childWithTitle name).world.repo.nodes 1).allProperties =
      [.single primaryTypeName .name (.string unstructuredType),
        titleUnder name] := rfl
  rw [hlist, List.mem_cons, List.mem_singleton] at hq
  rcases hq with rfl | rfl
  · exact absurd hkey htype
  · rfl

/-- A title of two words is found along the path, under its newer name
behind the older one. -/
theorem path_read_agrees_on_title :
    ((Site.ofChild true 0).map.get? "c/my title"
        (childWithTitle "my title")).1 =
      ((Site.ofChild true 1).map.get? "my title"
        (childWithTitle "my title")).1 ∧
    ((Site.ofChild true 0).map.get? "c/my title"
        (childWithTitle "my title")).1 = .ok (some (.string "T")) := by
  have hreached : (Site.ofChild true 0).ReachedByPath
      ((childWithTitle "my title").world.repo.nodes 1)
      ((Site.ofChild true 0).known (childWithTitle "my title"))
      "my title" := by
    refine .inr ⟨by decide +kernel, fun _ => .inl ?_⟩
    decide +kernel
  obtain ⟨hread, u, -, -, -, hagree⟩ := path_read_agrees_iff
    (Site.ofChild true 0) (childWithTitle "my title")
    (childWithTitle "my title")
    (wellFormed_childWithTitle (by decide) (by decide)) ["c"] (by decide)
    (by decide) 1 rfl "my title" (by decide) (by decide)
    (titleUnder "my title") (by rfl) (eq_title_of_mem (by decide +kernel)) rfl
    rfl
  exact ⟨hagree hreached, (hagree hreached).trans hread⟩

/-- A key with a registered prefix is not found along a path without the
older encoding, nor with it if the rest of the key is to be encoded. -/
theorem path_misses_prefixed_title :
    (((childWithTitle "jcr:title").world.repo.nodes 1).property?
        (storageName ((Site.ofChild false 1).known
          (childWithTitle "jcr:title")) "jcr:title") =
          some (titleUnder "jcr:title") ∧
      (∀ q ∈ ((childWithTitle "jcr:title").world.repo.nodes 1).allProperties,
        decodeName false q.name = "jcr:title" → q = titleUnder "jcr:title") ∧
      ((Site.ofChild false 1).map.get? "jcr:title"
        (childWithTitle "jcr:title")).1 = .ok (some (.string "T")) ∧
      ((Site.ofChild false 0).map.get? "c/jcr:title"
        (childWithTitle "jcr:title")).1 = .ok none) ∧
    ((Site.ofChild true 1).map.get? "jcr:my title"
      (childWithTitle "jcr:my title")).1 = .ok (some (.string "T")) ∧
    ((Site.ofChild true 0).map.get? "c/jcr:my title"
      (childWithTitle "jcr:my title")).1 = .ok none :=
  ⟨⟨rfl, eq_title_of_mem (by decide +kernel), rfl, rfl⟩, rfl,
    by with_unfolding_all rfl⟩

end ContentProperties.Memory
