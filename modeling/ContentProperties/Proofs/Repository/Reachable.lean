/-
What holds of every node that calls can bring about. A node begins empty
and is changed by `Edit`s, some of which fail: a name may be protected,
a value may have no stored form, a stream may break off while it is
buffered, a mixin may not be there. `Reachable` is what comes of it, in
a world where anything may happen to other nodes and to streams.

# The invariant

`NodeState.Sound` adds to `WellFormed` what readers of sizes and types
rely on: no mixin is there twice, and every binary kept is of known
length, since one of unknown length is buffered before it is kept.

# One step

Every edit does things in the same order: first what can fail, which
touches no content, and last a change of the node, which cannot fail.
`Upholds` says what follows from that order, soundness afterwards and
unchanged content after a failure, and `upholds_bind` is the order
itself. One lemma for each edit, and the run is an induction.
-/
import ContentProperties.Proofs.Repository.Upkeep

namespace ContentProperties

namespace Memory

/-- What is buffered has a length. -/
theorem Buffers.hasLength {v s : StoredValue} (h : Buffers v s) :
    s.toValue.HasLength := by
  cases v with
  | binary b =>
      cases hlen : b.length? with
      | some n =>
          simp only [Buffers, hlen] at h
          rw [h]
          exact Option.isSome_iff_exists.2 ⟨n, hlen⟩
      | none =>
          simp only [Buffers, hlen] at h
          obtain ⟨c, bytes, hsource, rfl⟩ := h
          simp [StoredValue.toValue, Value.HasLength, Binary.length?, hsource,
            Source.length?]
  | _ =>
      cases h
      trivial

-- ======================================================== single nodes

/-- What a reader may rely on in a property: a single value with its
length, or as many lengths as there are values, and nothing that would
have to be read for its length. -/
structure StoredProperty.Readable (p : StoredProperty) : Prop where
  single : p.multiple = false → ∃ v, p.values = [v] ∧
    ∀ w : World Repository, p.toProperty.value w = (.ok v.toValue, w) ∧
      p.toProperty.length w = (.ok v.size, w)
  multi : p.multiple = true → ∀ w : World Repository,
    p.toProperty.lengths w = (.ok (p.values.map StoredValue.size), w)
  sized : ∀ b, StoredValue.binary b ∈ p.values → b.length? ≠ none

/-- A property whose lengths are known has its lengths read without opening
anything. -/
theorem StoredProperty.WellFormed.readable {p : StoredProperty}
    (hp : p.WellFormed) (hlengths : ∀ v ∈ p.values, v.toValue.HasLength) :
    p.Readable := by
  refine ⟨fun hm => ?_, fun hm w => ?_, fun b hb => ?_⟩
  · obtain ⟨v, hv⟩ := hp hm
    have hlength : (v.length : Call Nat) = pure v.size :=
      StoredValue.length_eq (hlengths v (by simp [hv]))
    refine ⟨v, hv, fun w => ⟨?_, ?_⟩⟩
    · simp [toProperty, hm, hv, first]
    · simp [toProperty, hm, hv, first, hlength]
  · simp [toProperty, hm, lengthsOf_eq hlengths]
  · exact Option.isSome_iff_ne_none.1 (hlengths _ hb)

/-- What the edits of a node maintain. -/
structure NodeState.Sound (n : NodeState) : Prop where
  wellFormed : n.WellFormed
  /-- The lengths of what it keeps are known. -/
  lengths : ∀ e ∈ n.properties.entries, ∀ v ∈ e.2.values, v.toValue.HasLength
  /-- No mixin is there twice. -/
  mixins : n.mixins.Nodup
  /-- Its properties can be enumerated. -/
  listable : n.failsEnumeration = false

namespace NodeState

variable {n : NodeState}

/-- A node begins without properties and mixins. -/
theorem sound_new (path : String) (session : Nat) :
    (new path session).Sound :=
  ⟨wellFormed_new path session, fun _ he => absurd he List.not_mem_nil,
    List.nodup_nil, rfl⟩

/-- Soundness does not look at the counters. -/
theorem sound_congr {n' : NodeState} (h : n'.content = n.content) :
    n'.Sound ↔ n.Sound := by
  have hcontent : ∀ m : NodeState, m.Sound ↔ m.content.Sound := fun m =>
    ⟨fun hm => ⟨wellFormed_content.2 hm.wellFormed, hm.lengths, hm.mixins,
        hm.listable⟩,
      fun hm => ⟨wellFormed_content.1 hm.wellFormed, hm.lengths, hm.mixins,
        hm.listable⟩⟩
  rw [hcontent n', h, ← hcontent n]

/-- A property that is set has to be well-formed and of known lengths, under
a name that is not protected. -/
theorem Sound.withProperty (hn : n.Sound) {p : StoredProperty}
    (hp : p.name ≠ primaryTypeName) (hm : p.name ≠ mixinTypesName)
    (hwf : p.WellFormed) (hlengths : ∀ v ∈ p.values, v.toValue.HasLength) :
    (n.withProperty p).Sound := by
  refine ⟨hn.wellFormed.withProperty hp hm hwf, fun e he => ?_, hn.mixins,
    hn.listable⟩
  rcases Dict.of_mem_set he with rfl | he
  · exact hlengths
  · exact hn.lengths e he

theorem Sound.withoutProperty (hn : n.Sound) (name : String) :
    (n.withoutProperty name).Sound :=
  ⟨hn.wellFormed.withoutProperty name,
    fun e he => hn.lengths e (Dict.of_mem_erase he), hn.mixins, hn.listable⟩

theorem Sound.withMixins (hn : n.Sound) {mixins : List String}
    (h : mixins.Nodup) : { n with mixins := mixins }.Sound :=
  ⟨hn.wellFormed.congr rfl, hn.lengths, h, hn.listable⟩

/-- Types are names, which have the length of their text. -/
theorem hasLength_typeProperty? {name : String} {p : StoredProperty}
    (h : n.typeProperty? name = some p) :
    ∀ v ∈ p.values, v.toValue.HasLength := by
  unfold typeProperty? at h
  split at h
  · split at h <;> cases h
    intro v hv
    rw [List.mem_singleton.1 hv]
    trivial
  · split at h
    · split at h <;> cases h
      intro v hv
      obtain ⟨mixin, -, rfl⟩ := List.mem_map.1 hv
      trivial
    · cases h

theorem names_typeProperty? (name : String) :
    ((n.typeProperty? name).toList.map (·.name)).Sublist [name] := by
  cases hp : n.typeProperty? name with
  | none => exact List.nil_sublist _
  | some p =>
      rw [Option.toList_some, List.map_singleton,
        (of_typeProperty?_eq_some hp).1]

/-- Every property that is shown can be read. -/
theorem Sound.readable (hn : n.Sound) {p : StoredProperty}
    (hp : p ∈ n.allProperties) : p.Readable := by
  have hfound := hn.wellFormed.mem_allProperties_iff.1 hp
  refine (hn.wellFormed.of_property?_eq_some hfound).2.readable ?_
  unfold property? at hfound
  split at hfound
  · next q hq =>
    cases hfound
    exact hasLength_typeProperty? hq
  · exact hn.lengths _ (Dict.mem_of_lookup_eq_some hfound)

/-- No two properties are shown under one name. -/
theorem WellFormed.nodup_names (hn : n.WellFormed) :
    (n.allProperties.map (·.name)).Nodup := by
  have hkeys : n.properties.values.map (·.name) = n.properties.keys := by
    rw [Dict.values, List.map_map]
    exact List.map_congr_left hn.named
  have hsub : (n.allProperties.map (·.name)).Sublist
      (primaryTypeName :: mixinTypesName :: n.properties.keys) := by
    rw [allProperties, List.map_append, List.map_append, hkeys]
    exact ((names_typeProperty? _).append (names_typeProperty? _)).append
      (List.Sublist.refl _)
  refine hsub.nodup (List.nodup_cons.2 ⟨?_, List.nodup_cons.2
    ⟨hn.unprotected.2, n.properties.nodup⟩⟩)
  rw [List.mem_cons, not_or]
  exact ⟨by decide, hn.unprotected.1⟩

/-- A lookup finds what an enumeration shows under the name. -/
theorem WellFormed.find?_allProperties (hn : n.WellFormed)
    (name : String) :
    n.allProperties.find? (fun p => p.name = name) = n.property? name := by
  cases hfound : n.property? name with
  | none =>
      rw [List.find?_eq_none]
      intro p hp hname
      have heq : p.name = name := by simpa using hname
      rw [hn.mem_allProperties_iff, heq, hfound] at hp
      cases hp
  | some p =>
      have hname : p.name = name := (hn.of_property?_eq_some hfound).1
      have hp : p ∈ n.allProperties := by
        rw [hn.mem_allProperties_iff, hname, hfound]
      cases hq : n.allProperties.find? (fun p => p.name = name) with
      | none => exact absurd (List.find?_eq_none.1 hq p hp) (by simp [hname])
      | some q =>
          have hqname : q.name = name := by simpa using List.find?_some hq
          have hqfound := hn.mem_allProperties_iff.1
            (List.mem_of_find?_eq_some hq)
          rw [← hqfound, hqname, hfound]

end NodeState

-- ============================================================ one step

variable {α β : Type} {id : Nat}

variable (id) in
/-- However the call ends, a sound node is sound afterwards; and if it
fails, the content of the repository is what it was. -/
def Upholds (call : Call α) : Prop :=
  ∀ w, (w.repo.nodes id).Sound →
    ((call w).2.repo.nodes id).Sound ∧
      ∀ e, (call w).1 = .error e → contentOf (call w).2 = contentOf w

/-- What keeps the content can neither break soundness nor leave a trace
when it fails. -/
theorem upholds_of_keeps {call : Call α} (h : Keeps contentOf call) :
    Upholds id call :=
  fun w hw => ⟨(NodeState.sound_congr (node_congr id (h w))).2 hw,
    fun _ _ => h w⟩

/-- What can fail comes first, and touches no content. -/
theorem upholds_bind {call : Call α} {f : α → Call β}
    (hcall : Keeps contentOf call)
    (hf : ∀ w a t, call w = (.ok a, t) → Upholds id (f a)) :
    Upholds id (call >>= f) := by
  intro w hw
  have hsame := hcall w
  rw [run_bind]
  rcases hr : call w with ⟨e | a, t⟩ <;> rw [hr] at hsame
  · exact ⟨(NodeState.sound_congr (node_congr id hsame)).2 hw,
      fun _ _ => hsame⟩
  · obtain ⟨hsound, hfail⟩ := hf w a t hr t
      ((NodeState.sound_congr (node_congr id hsame)).2 hw)
    exact ⟨hsound, fun e he => (hfail e he).trans hsame⟩

/-- What changes the node comes last, and cannot fail. -/
theorem upholds_changeNode {f : NodeState → NodeState}
    (hf : ∀ n, n.Sound → (f n).Sound) : Upholds id (changeNode id f) := by
  intro w hw
  refine ⟨?_, fun _ he => nomatch he⟩
  show ((w.repo.modifyNode id f).nodes id).Sound
  rw [Repository.nodes_modifyNode]
  exact hf _ hw

theorem upholds_countWrite {call : Call α} (h : Upholds id call) :
    Upholds id (countWrite id >>= fun _ => call) :=
  upholds_bind (keeps_count id _) fun _ _ _ _ => h

/-- A write to a protected name ends before it begins. -/
theorem upholds_checkWritable {name : String} {call : Call α}
    (h : name ≠ primaryTypeName → name ≠ mixinTypesName →
      Upholds id call) :
    Upholds id (checkWritable name >>= fun _ => call) := by
  unfold checkWritable
  split
  · exact fun w hw => ⟨hw, fun _ _ => rfl⟩
  · next hname =>
    rw [not_or] at hname
    exact h hname.1 hname.2

/-- A stream is read before it is kept, so a value that is kept has a known
length. If reading fails, nothing was kept. -/
theorem upholds_setProperty (name : String) (v : StoredValue) :
    Upholds id (setProperty id name v) := by
  refine upholds_checkWritable fun hp hm => upholds_countWrite <|
    upholds_bind (keeps_buffered v) fun w s t hrun => ?_
  refine upholds_changeNode fun n hn =>
    hn.withProperty hp hm (fun _ => ⟨s, rfl⟩) fun v' hv' => ?_
  rw [List.mem_singleton.1 hv']
  exact (buffers_of_run hrun).hasLength

/-- All values are buffered before the first is kept. -/
theorem upholds_setMultiProperty (name : String) (vs : List StoredValue) :
    Upholds id (setMultiProperty id name vs) := by
  refine upholds_checkWritable fun hp hm => upholds_countWrite <|
    upholds_bind (keeps_bufferedAll vs) fun w ss t hrun => ?_
  refine upholds_changeNode fun n hn =>
    hn.withProperty hp hm (fun hsingle => nomatch hsingle) fun s hs => ?_
  obtain ⟨v, -, hbuf⟩ :=
    exists_of_forall₂ (buffers_of_run_all hrun).flip hs
  exact Buffers.hasLength hbuf

/-- A value without a stored form is refused before anything is written. -/
theorem upholds_insert (sid : Nat) (name : String) (v : Value) :
    Upholds id (insert id sid name v) := by
  cases v with
  | array items =>
      exact upholds_bind (keeps_nativeAll sid name items) fun _ vs _ _ =>
        upholds_setMultiProperty name vs
  | _ =>
      exact upholds_bind (keeps_native sid name _) fun _ s _ _ =>
        upholds_setProperty name s

/-- A mixin that is there is not added again. -/
theorem upholds_addMixin (sid : Nat) (name : String) :
    Upholds id ((node id sid).addMixin name) := by
  refine upholds_countWrite <| upholds_changeNode fun n hn => ?_
  split
  · exact hn
  · next hnot =>
    refine hn.withMixins (List.nodup_append.2 ⟨hn.mixins,
      List.pairwise_singleton .., ?_⟩)
    rintro mixin hmixin _ hmem rfl
    rw [List.mem_singleton] at hmem
    exact hnot (by simpa [hmem] using hmixin)

/-- A mixin that is not there cannot be removed, which fails without a
change. -/
theorem upholds_removeMixin (sid : Nat) (name : String) :
    Upholds id ((node id sid).removeMixin name) := by
  refine upholds_countWrite <| upholds_bind (keeps_look _) fun _ _ _ _ => ?_
  split
  · exact upholds_changeNode fun n hn =>
      hn.withMixins (hn.mixins.filter _)
  · exact upholds_of_keeps (keeps_throw _)

/-- A property may be removed whether it is there or not. -/
theorem upholds_removeProperty (sid : Nat) (name : String) :
    Upholds id ((node id sid).removeProperty name) :=
  upholds_checkWritable fun _ _ => upholds_countWrite <|
    upholds_changeNode fun _ hn => hn.withoutProperty name

-- ============================================================== edits

/-- The calls that change a node. -/
inductive Edit where
  | insert (name : String) (v : Value)
  | setProperty (name : String) (v : StoredValue)
  | setMultiProperty (name : String) (vs : List StoredValue)
  | removeProperty (name : String)
  | addMixin (name : String)
  | removeMixin (name : String)
  | setPrimaryType (name : String)
  | hidePrimaryType (hide : Bool)

/-- Makes the call on the node of the number, with its session. -/
def Edit.run (id sid : Nat) : Edit → Call Unit
  | .insert name v => Memory.insert id sid name v
  | .setProperty name v => (node id sid).setProperty name v
  | .setMultiProperty name vs => (node id sid).setMultiProperty name vs
  | .removeProperty name => (node id sid).removeProperty name
  | .addMixin name => (node id sid).addMixin name
  | .removeMixin name => (node id sid).removeMixin name
  | .setPrimaryType name => (node id sid).setPrimaryType name
  | .hidePrimaryType hide => Memory.hidePrimaryType id hide

/-- Every edit is one of the calls above, or a change of type. -/
theorem Edit.upholds (sid : Nat) (e : Edit) : Upholds id (e.run id sid) := by
  cases e with
  | insert name v => exact upholds_insert sid name v
  | setProperty name v => exact upholds_setProperty name v
  | setMultiProperty name vs => exact upholds_setMultiProperty name vs
  | removeProperty name => exact upholds_removeProperty sid name
  | addMixin name => exact upholds_addMixin sid name
  | removeMixin name => exact upholds_removeMixin sid name
  | setPrimaryType name =>
      exact upholds_countWrite <| upholds_changeNode fun _ hn =>
        ⟨hn.wellFormed.congr rfl, hn.lengths, hn.mixins, hn.listable⟩
  | hidePrimaryType hide =>
      exact upholds_changeNode fun _ hn =>
        ⟨hn.wellFormed.congr rfl, hn.lengths, hn.mixins, hn.listable⟩

-- ======================================================== reachability

/-- The worlds in which a node is what edits made of it, whether they
succeeded or failed. Between edits anything may happen that leaves the
content of the node alone: reads, and whatever other nodes and streams
are used for. -/
inductive Reachable (id sid : Nat) : World Repository → Prop
  | new {w : World Repository} {path : String} {session : Nat}
      (h : w.repo.nodes id = NodeState.new path session) :
      Reachable id sid w
  | edit {w : World Repository} (e : Edit) (h : Reachable id sid w) :
      Reachable id sid (e.run id sid w).2
  | between {w t : World Repository} (h : Reachable id sid w)
      (hsame : (t.repo.nodes id).content = (w.repo.nodes id).content) :
      Reachable id sid t

variable {sid : Nat} {w : World Repository}

/-- Soundness holds at first and is upheld by every edit. -/
theorem Reachable.sound (h : Reachable id sid w) :
    (w.repo.nodes id).Sound := by
  induction h with
  | new h =>
    rw [h]
    exact NodeState.sound_new _ _
  | edit e _ ih => exact (e.upholds sid _ ih).1
  | between _ hsame ih => exact (NodeState.sound_congr hsame).2 ih

/-- What holds of every node that edits can bring about: no mixin is
there twice; the properties can be enumerated, and no two of them have
one name; a lookup by a name finds a property if and only if the
enumeration shows one of that name, and then that one; a single-valued
property has its value and its length, a multi-valued one as many lengths
as values, and no binary is kept without a known length; and the edit
that fails next leaves all content as it is. -/
theorem Reachable.is_consistent (h : Reachable id sid w) :
    let n := w.repo.nodes id
    n.mixins.Nodup ∧
      ((node id sid).properties w).1 =
        .ok (n.allProperties.map StoredProperty.toProperty) ∧
      (n.allProperties.map (·.name)).Nodup ∧
      (∀ name, '/' ∉ name.toList → ((node id sid).property? name w).1 =
        .ok ((n.allProperties.find? fun p => p.name = name).map
          StoredProperty.toProperty)) ∧
      (∀ p ∈ n.allProperties, p.Readable) ∧
      ∀ (e : Edit) cause, (e.run id sid w).1 = .error cause →
        contentOf (e.run id sid w).2 = contentOf w := by
  intro n
  have hn : n.Sound := h.sound
  have hlist := run_properties id sid w
  rw [if_neg (by rw [hn.listable]; decide)] at hlist
  refine ⟨hn.mixins, hlist, hn.wellFormed.nodup_names, fun name hname => ?_,
    fun p hp => hn.readable hp, fun e => (e.upholds sid w hn).2⟩
  rw [run_property?, w.repo.resolve?_of_not_mem id hname,
    hn.wellFormed.find?_allProperties]

/-- A property is set, and then written again with a stream that does
not open: the write fails and the property stays. -/
theorem Reachable.of_failed_write :
    let w := ((Edit.setProperty "a" (.long 7)).run 0 0
      ⟨Streams.empty, .empty⟩).2
    let e := Edit.setProperty "a"
      (.binary ⟨0, .provided none [] true false⟩)
    Reachable 0 0 w ∧ (e.run 0 0 w).1 = .error (.io .openFailed) ∧
      contentOf (e.run 0 0 w).2 = contentOf w := by
  intro w e
  have hreach : Reachable 0 0 w := .edit _ (.new rfl)
  have hfail : (e.run 0 0 w).1 = .error (.io .openFailed) := rfl
  obtain ⟨-, -, -, -, -, hkept⟩ := hreach.is_consistent
  exact ⟨hreach, hfail, hkept e _ hfail⟩

end Memory

end ContentProperties
