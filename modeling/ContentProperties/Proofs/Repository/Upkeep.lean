/-
Nodes stay well-formed. What readers rely on (`NodeState.WellFormed`)
holds of an empty repository, of every node and child that is added, and
after every call of a node, whether it succeeds or fails; so it holds of
all repositories that can come about. The one call that could put a
property in the place of a type is refused (`checkWritable`).
-/
import ContentProperties.Proofs.Dict
import ContentProperties.Proofs.Repository.NodeCalls

namespace ContentProperties.Memory

-- ======================================================== single nodes

namespace NodeState

variable {n : NodeState} {p : StoredProperty} {name : String}

/-- A new node has no properties that could be at fault. -/
theorem wellFormed_new (path : String) (session : Nat) :
    (new path session).WellFormed := by
  refine ⟨?_, ⟨?_, ?_⟩, ?_⟩ <;> simp [new, Dict.empty, Dict.keys, namesOf]

/-- What is said of a node depends on its properties alone. -/
theorem WellFormed.congr {n' : NodeState} (hn : n.WellFormed)
    (h : n'.properties = n.properties) : n'.WellFormed := by
  refine ⟨?_, ?_, ?_⟩ <;> rw [h]
  · exact hn.named
  · exact hn.unprotected
  · exact hn.properties

/-- A property may be set if it is well-formed and its name is not that of a
type. -/
theorem WellFormed.withProperty (hn : n.WellFormed)
    (hp : p.name ≠ primaryTypeName) (hm : p.name ≠ mixinTypesName)
    (hwf : p.WellFormed) : (n.withProperty p).WellFormed := by
  have hkeys : ∀ {name}, name ≠ p.name → name ∉ n.properties.keys →
      name ∉ (n.withProperty p).properties.keys := by
    intro name hne hnot hmem
    obtain ⟨e, he, heq⟩ := List.mem_map.1 hmem
    rcases Dict.of_mem_set he with rfl | he
    · exact hne heq.symm
    · exact hnot (heq ▸ List.mem_map_of_mem he)
  refine ⟨?_, ⟨hkeys (Ne.symm hp) hn.unprotected.1,
    hkeys (Ne.symm hm) hn.unprotected.2⟩, ?_⟩
  · intro e he
    rcases Dict.of_mem_set he with rfl | he
    · rfl
    · exact hn.named e he
  · intro e he
    rcases Dict.of_mem_set he with rfl | he
    · exact hwf
    · exact hn.properties e he

/-- Any property may be removed. -/
theorem WellFormed.withoutProperty (hn : n.WellFormed) (name : String) :
    (n.withoutProperty name).WellFormed := by
  have hkeys : ∀ {other}, other ∉ n.properties.keys →
      other ∉ (n.withoutProperty name).properties.keys := by
    intro other hnot hmem
    obtain ⟨e, he, heq⟩ := List.mem_map.1 hmem
    exact hnot (heq ▸ List.mem_map_of_mem (Dict.of_mem_erase he))
  exact ⟨fun e he => hn.named e (Dict.of_mem_erase he),
    ⟨hkeys hn.unprotected.1, hkeys hn.unprotected.2⟩,
    fun e he => hn.properties e (Dict.of_mem_erase he)⟩

end NodeState

-- ======================================================== repositories

namespace Repository

variable {r : Repository}

/-- A change of one node that keeps it well-formed keeps the repository
so. -/
theorem WellFormed.modifyNode (hr : r.WellFormed) {id : Nat}
    {f : NodeState → NodeState}
    (hf : ∀ n : NodeState, n.WellFormed → (f n).WellFormed) :
    (r.modifyNode id f).WellFormed := by
  intro i
  show (if i = id then f (r.nodes i) else r.nodes i).WellFormed
  split
  · exact hf _ (hr i)
  · exact hr i

theorem wellFormed_empty : empty.WellFormed :=
  fun _ => NodeState.wellFormed_new "" 0

theorem WellFormed.newSession (hr : r.WellFormed) :
    r.newSession.2.WellFormed := hr

/-- A node that was not there before is a new one. -/
theorem WellFormed.newNode (hr : r.WellFormed) (path : String)
    (session : Nat) : (r.newNode path session).2.WellFormed := by
  intro i
  show (if i = r.nodeCount then NodeState.new path session
    else r.nodes i).WellFormed
  split
  · exact NodeState.wellFormed_new path session
  · exact hr i

/-- A child is a new node, and its parent has the same properties as
before. -/
theorem WellFormed.addChild (hr : r.WellFormed) (id : Nat)
    (name : String) : (r.addChild id name).2.WellFormed := by
  unfold Repository.addChild
  dsimp only
  split
  · exact hr
  · dsimp only
    apply WellFormed.modifyNode
    · exact hr.newNode _ _
    · intro n hn
      exact hn.congr rfl

theorem WellFormed.withProperty (hr : r.WellFormed) (id : Nat)
    {p : StoredProperty} (hp : p.name ≠ primaryTypeName)
    (hm : p.name ≠ mixinTypesName) (hwf : p.WellFormed) :
    (r.withProperty id p).WellFormed :=
  hr.modifyNode fun _ hn => hn.withProperty hp hm hwf

theorem WellFormed.withoutProperty (hr : r.WellFormed) (id : Nat)
    (name : String) : (r.withoutProperty id name).WellFormed :=
  hr.modifyNode fun _ hn => hn.withoutProperty name

end Repository

-- =============================================================== calls

variable {α β : Type}

/-- However the call ends, well-formed nodes are still so. -/
def Maintains (call : Call α) : Prop :=
  ∀ w, w.repo.WellFormed → (call w).2.repo.WellFormed

/-- What keeps the content keeps it well-formed. -/
theorem maintains_of_keeps {call : Call α} (h : Keeps contentOf call) :
    Maintains call := by
  intro w hw
  have hcontent := Repository.wellFormed_content.2 hw
  rw [show w.repo.content = (call w).2.repo.content from (h w).symm]
    at hcontent
  exact Repository.wellFormed_content.1 hcontent

/-- Calls in a row maintain the nodes if each of them does. -/
theorem maintains_bind {call : Call α} {f : α → Call β}
    (hcall : Maintains call) (hf : ∀ a, Maintains (f a)) :
    Maintains (call >>= f) := by
  intro w hw
  have h := hcall w hw
  rw [run_bind]
  rcases hr : call w with ⟨_ | a, t⟩ <;> rw [hr] at h
  · exact h
  · exact hf a t h

theorem maintains_throw (e : RepositoryError) :
    Maintains (throw e : Call α) :=
  fun _ hw => hw

/-- A change of a node that leaves its properties alone. -/
theorem maintains_changeNode (id : Nat) {f : NodeState → NodeState}
    (hf : ∀ n, (f n).properties = n.properties) :
    Maintains (changeNode id f) :=
  fun _ hw => hw.modifyNode fun n hn => hn.congr (hf n)

theorem maintains_countWrite (id : Nat) : Maintains (countWrite id) :=
  maintains_of_keeps (keeps_count id _)

/-- A write ends at once under a protected name, and maintains the nodes
if it does so under all other names. -/
theorem maintains_checkWritable {name : String} {call : Call α}
    (h : name ≠ primaryTypeName → name ≠ mixinTypesName → Maintains call) :
    Maintains (checkWritable name >>= fun _ => call) := by
  by_cases hname : name = primaryTypeName ∨ name = mixinTypesName
  · intro w hw
    rw [checkWritable, if_pos hname]
    exact hw
  · rw [not_or] at hname
    intro w hw
    rw [run_bind_of_ok (run_checkWritable hname.1 hname.2 w)]
    exact h hname.1 hname.2 w hw

/-- One value is stored under a name that is not protected, with the type
that the value has. -/
theorem maintains_setProperty (id : Nat) (name : String)
    (v : StoredValue) : Maintains (setProperty id name v) :=
  maintains_checkWritable fun hp hm =>
    maintains_bind (maintains_countWrite id) fun _ =>
      maintains_bind (maintains_of_keeps (keeps_buffered v)) fun s _ hw =>
        hw.withProperty id hp hm fun _ => ⟨s, rfl⟩

/-- Several values may be stored under one type, whatever type it is. -/
theorem maintains_setMultiProperty (id : Nat) (name : String)
    (vs : List StoredValue) : Maintains (setMultiProperty id name vs) :=
  maintains_checkWritable fun hp hm =>
    maintains_bind (maintains_countWrite id) fun _ =>
      maintains_bind (maintains_of_keeps (keeps_bufferedAll vs))
        fun _ _ hw => hw.withProperty id hp hm fun hsingle => nomatch hsingle

/-- Filling a node with values maintains all nodes. -/
theorem maintains_insert (id sid : Nat) (name : String) (v : Value) :
    Maintains (insert id sid name v) := by
  cases v with
  | array items =>
      exact maintains_bind
        (maintains_of_keeps (keeps_nativeAll sid name items)) fun vs =>
        maintains_setMultiProperty id name vs
  | _ =>
      exact maintains_bind
        (maintains_of_keeps (keeps_native sid name _)) fun s =>
        maintains_setProperty id name s

/-- The calls by which a node can change maintain all nodes. -/
theorem maintains_node (id sid : Nat) (name : String) :
    Maintains ((node id sid).addMixin name) ∧
    Maintains ((node id sid).removeMixin name) ∧
    Maintains ((node id sid).setPrimaryType name) ∧
    (∀ v, Maintains ((node id sid).setProperty name v)) ∧
    (∀ vs, Maintains ((node id sid).setMultiProperty name vs)) ∧
    Maintains ((node id sid).removeProperty name) := by
  refine ⟨?_, ?_, ?_, maintains_setProperty id name,
    maintains_setMultiProperty id name, ?_⟩
  · refine maintains_bind (maintains_countWrite id) fun _ =>
      maintains_changeNode id fun n => ?_
    split <;> rfl
  · refine maintains_bind (maintains_countWrite id) fun _ =>
      maintains_bind (maintains_of_keeps (keeps_look _)) fun n => ?_
    split
    · exact maintains_changeNode id fun _ => rfl
    · exact maintains_throw _
  · exact maintains_bind (maintains_countWrite id) fun _ =>
      maintains_changeNode id fun _ => rfl
  · refine maintains_checkWritable fun hp hm =>
      maintains_bind (maintains_countWrite id) fun _ w hw => ?_
    exact hw.withoutProperty id name

-- ============================================================ a sample

/-- A repository with a property on its first node. -/
def Repository.sample : Repository :=
  empty.withProperty 0 (.single "a" .long (.long 7))

theorem Repository.wellFormed_sample : sample.WellFormed :=
  wellFormed_empty.withProperty 0 (by decide) (by decide) fun _ => ⟨_, rfl⟩

end ContentProperties.Memory
