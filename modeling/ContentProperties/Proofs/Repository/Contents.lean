/-
What a node in memory holds, apart from how often it was asked. Every
call counts, so no call leaves a repository as it was; `content` forgets
the counts, and what remains is all that lookups depend on.

The file runs the calls of a node on the content. Reading calls keep it
and answer by pure functions of it. Writing a property under a name that
is not protected either fails and keeps it, or sets that one property.

# Well-formed nodes

`NodeState.WellFormed` is what the calls of a node maintain and its
readers rely on: properties know their names, the protected names are
not among them, and a single-valued property has its value.
-/
import ContentProperties.Proofs.Calls
import ContentProperties.Proofs.Name.Paths
import ContentProperties.Repository.Memory

namespace ContentProperties

-- ============================================================= lengths

/-- The length of the value is known without reading it, of which there is
doubt for binaries only. -/
def Value.HasLength : Value → Prop
  | .binary b => b.length?.isSome = true
  | _ => True

/-- The length of a stored value, as far as it is known without reading. -/
def StoredValue.size : StoredValue → Nat
  | .binary b => b.length?.getD 0
  | v => v.toText.length

/-- A known length is told without a question to the world. -/
theorem StoredValue.length_eq {σ : Type} {v : StoredValue}
    (hv : v.toValue.HasLength) : (v.length : Act σ Nat) = pure v.size := by
  cases v with
  | binary b =>
    obtain ⟨n, hn⟩ := Option.isSome_iff_exists.1 hv
    simp [length, size, hn]
  | _ => rfl

namespace Memory

theorem StoredProperty.lengthsOf_eq {σ : Type} {vs : List StoredValue}
    (hvs : ∀ v ∈ vs, v.toValue.HasLength) :
    (lengthsOf vs : Act σ (List Nat)) = pure (vs.map StoredValue.size) := by
  induction vs with
  | nil => rfl
  | cons v rest ih =>
    unfold lengthsOf
    rw [StoredValue.length_eq (hvs v List.mem_cons_self),
      ih fun u hu => hvs u (List.mem_cons_of_mem _ hu)]
    rfl

-- ============================================================= content

/-- The state of a node, without its counters. -/
def NodeState.content (n : NodeState) : NodeState :=
  { n with counters := ⟨0, 0, 0, 0⟩ }

/-- A repository without any counters. -/
def Repository.content (r : Repository) : Repository :=
  ⟨fun i => (r.nodes i).content, r.nodeCount,
    fun i => ⟨(r.sessions i).prefixes, 0⟩, r.sessionCount, r.faults⟩

namespace Repository

/-- Counting the calls of a node changes no content. -/
theorem content_count (r : Repository) (id : Nat)
    (f : Counters → Counters) :
    (r.modifyNode id fun n => { n with counters := f n.counters }).content =
      r.content := by
  have hnodes : (fun i =>
      (if i = id then
        { r.nodes i with counters := f (r.nodes i).counters }
      else r.nodes i).content) = fun i => (r.nodes i).content := by
    funext i
    split <;> rfl
  simp only [content, modifyNode, hnodes]

/-- Counting the calls of a session changes no content. -/
theorem content_countSession (r : Repository) (id : Nat) :
    (r.modifySession id fun s => { s with calls := s.calls + 1 }).content =
      r.content := by
  have hsessions : (fun i =>
      (⟨(if i = id then
        { r.sessions i with calls := (r.sessions i).calls + 1 }
      else r.sessions i).prefixes, 0⟩ : SessionState)) =
        fun i => ⟨(r.sessions i).prefixes, 0⟩ := by
    funext i
    split <;> rfl
  simp only [content, modifySession, hsessions]

theorem descend?_content (r : Repository) (id : Nat) (path : List String) :
    r.content.descend? id path = r.descend? id path := by
  induction path generalizing id with
  | nil => rfl
  | cons name rest ih =>
    have hchildren : (r.content.nodes id).children = (r.nodes id).children :=
      rfl
    simp only [descend?, hchildren, ih]

/-- A lookup depends on the content alone. -/
theorem resolve?_content (r : Repository) (id : Nat) (path : String) :
    r.content.resolve? id path = r.resolve? id path := by
  simp only [resolve?, descend?_content]
  rfl

/-- A path over names is resolved by going down and looking the last one
up. -/
theorem resolve?_of_segments (r : Repository) (id : Nat)
    {path : String} {names : List String} {last : String}
    (hnames : ∀ name ∈ names, name ≠ "" ∧ name ≠ ".")
    (h : Name.segments path.toList =
      names.map String.toList ++ [last.toList]) :
    r.resolve? id path = (r.descend? id names).bind
      fun owner => (r.nodes owner).property? last := by
  have hlist : (Name.segments path.toList).map String.ofList =
      names ++ [last] := by
    rw [h, List.map_append, List.map_map]
    simp [Function.comp_def]
  have hkept : names.filter (fun s => s ≠ "" && s ≠ ".") = names := by
    rw [List.filter_eq_self]
    intro name hname
    simpa using hnames name hname
  unfold resolve?
  dsimp only
  rw [hlist, List.dropLast_concat, List.getLast?_concat, Option.getD_some,
    hkept]
  cases r.descend? id names <;> rfl

/-- A name without a slash is looked up in the node itself. -/
theorem resolve?_of_not_mem (r : Repository) (id : Nat) {name : String}
    (h : '/' ∉ name.toList) :
    r.resolve? id name = (r.nodes id).property? name := by
  have hsegments : Name.segments name.toList =
      ([] : List String).map String.toList ++ [name.toList] :=
    Name.segments_of_not_mem h
  rw [r.resolve?_of_segments id (by simp) hsegments]
  rfl

end Repository

-- ============================================================== values

/-- What the property shows as its value: an array of its values, or its
only value. A single-valued property without a value, which no node has,
counts as an empty array. -/
def StoredProperty.natural (p : StoredProperty) : Value :=
  if p.multiple then .array (p.values.map StoredValue.toValue)
  else
    match p.values with
    | v :: _ => v.toValue
    | [] => .array []

/-- A single-valued property has one value. -/
def StoredProperty.WellFormed (p : StoredProperty) : Prop :=
  p.multiple = false → ∃ v, p.values = [v]

theorem run_value {p : StoredProperty} (hp : p.WellFormed)
    (w : World Repository) : p.toProperty.value w = (.ok p.natural, w) := by
  cases hm : p.multiple with
  | true => simp [StoredProperty.toProperty, StoredProperty.natural, hm]
  | false =>
      obtain ⟨v, hv⟩ := hp hm
      simp [StoredProperty.toProperty, StoredProperty.natural, hm, hv,
        StoredProperty.first]

-- =============================================================== nodes

/-- What the calls of a node maintain. -/
structure NodeState.WellFormed (n : NodeState) : Prop where
  /-- A property is kept under its own name. -/
  named : ∀ e ∈ n.properties.entries, e.2.name = e.1
  /-- The names that show types are left free. -/
  unprotected : primaryTypeName ∉ n.properties.keys ∧
    mixinTypesName ∉ n.properties.keys
  /-- The properties have their values. -/
  properties : ∀ e ∈ n.properties.entries, e.2.WellFormed

/-- All nodes are well-formed. -/
def Repository.WellFormed (r : Repository) : Prop :=
  ∀ id, (r.nodes id).WellFormed

theorem NodeState.wellFormed_content {n : NodeState} :
    n.content.WellFormed ↔ n.WellFormed :=
  ⟨fun h => ⟨h.named, h.unprotected, h.properties⟩,
    fun h => ⟨h.named, h.unprotected, h.properties⟩⟩

theorem Repository.wellFormed_content {r : Repository} :
    r.content.WellFormed ↔ r.WellFormed :=
  forall_congr' fun _ => NodeState.wellFormed_content

namespace NodeState

variable {n : NodeState}

/-- A property that shows a type is well-formed and has the name it is
found under. -/
theorem of_typeProperty?_eq_some {name : String} {p : StoredProperty}
    (h : n.typeProperty? name = some p) :
    p.name = name ∧ p.WellFormed ∧
      (name = primaryTypeName ∨ name = mixinTypesName) := by
  unfold typeProperty? at h
  split at h
  · next heq =>
    split at h
    · cases h
    · cases h
      exact ⟨heq.symm, fun _ => ⟨_, rfl⟩, .inl heq⟩
  · split at h
    · next heq =>
      split at h
      · cases h
      · cases h
        exact ⟨heq.symm, fun hm => by simp [StoredProperty.multi] at hm,
          .inr heq⟩
    · cases h

theorem typeProperty?_of_ne {name : String} (hp : name ≠ primaryTypeName)
    (hm : name ≠ mixinTypesName) : n.typeProperty? name = none := by
  simp [typeProperty?, hp, hm]

theorem property?_of_ne {name : String} (hp : name ≠ primaryTypeName)
    (hm : name ≠ mixinTypesName) :
    n.property? name = n.properties.get? name := by
  simp [property?, typeProperty?_of_ne hp hm]

/-- A property that is found has the name it is found under. -/
theorem WellFormed.of_property?_eq_some (hn : n.WellFormed) {name : String}
    {p : StoredProperty} (h : n.property? name = some p) :
    p.name = name ∧ p.WellFormed := by
  unfold property? at h
  split at h
  · next q hq =>
    cases h
    obtain ⟨hname, hwf, -⟩ := of_typeProperty?_eq_some hq
    exact ⟨hname, hwf⟩
  · have hmem := Dict.mem_of_lookup_eq_some h
    exact ⟨hn.named _ hmem, hn.properties _ hmem⟩

/-- Lookups find exactly what enumerations show. -/
theorem WellFormed.mem_allProperties_iff (hn : n.WellFormed)
    {p : StoredProperty} :
    p ∈ n.allProperties ↔ n.property? p.name = some p := by
  have hnot {name : String} {q : StoredProperty}
      (h : (name, q) ∈ n.properties.entries) :
      name ≠ primaryTypeName ∧ name ≠ mixinTypesName := by
    have hkey : name ∈ n.properties.keys :=
      List.mem_map_of_mem (f := (·.1)) h
    exact ⟨fun heq => hn.unprotected.1 (heq ▸ hkey),
      fun heq => hn.unprotected.2 (heq ▸ hkey)⟩
  simp only [allProperties, List.mem_append, Option.mem_toList,
    Dict.values, List.mem_map]
  constructor
  · rintro ((h | h) | ⟨⟨name, q⟩, hmem, rfl⟩)
    · obtain ⟨hname, -, -⟩ := of_typeProperty?_eq_some h
      simp [property?, hname, h]
    · obtain ⟨hname, -, -⟩ := of_typeProperty?_eq_some h
      simp [property?, hname, h]
    · obtain ⟨hp, hm⟩ := hnot hmem
      rw [hn.named _ hmem, property?_of_ne hp hm]
      exact (Dict.lookup_eq_some_iff_mem n.properties.nodup).2 hmem
  · intro h
    unfold property? at h
    split at h
    · next q hq =>
      cases h
      obtain ⟨-, -, heq | heq⟩ := of_typeProperty?_eq_some hq
      · exact .inl (.inl (heq ▸ hq))
      · exact .inl (.inr (heq ▸ hq))
    · exact .inr ⟨(p.name, p), Dict.mem_of_lookup_eq_some h, rfl⟩

end NodeState

end Memory

end ContentProperties
