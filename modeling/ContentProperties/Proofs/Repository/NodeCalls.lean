/-
The calls of a node in memory, run on its content. What a reading call
yields is a function of the content, which it keeps. A write to a name
that is not protected either fails, and keeps the content too, or makes
exactly one change to the properties of one node.

A value comes into a property in two steps: it gets a stored form
(`StoredAs`), and a stored binary whose length is not known is read into
a new one (`Buffers`).
-/
import ContentProperties.Proofs.Dict
import ContentProperties.Proofs.Repository.Contents
import Mathlib.Data.List.Forall2

namespace ContentProperties.Memory

/-- The content of the repository in a world. -/
abbrev contentOf (w : World Repository) : Repository := w.repo.content

variable (id sid : Nat)

-- ============================================================== reading

/-- Counting a call is no change of content. -/
theorem keeps_count (f : Counters → Counters) :
    Keeps contentOf (count id f) :=
  fun w => Repository.content_count w.repo id f

theorem keeps_look {α : Type} (f : Repository → α) :
    Keeps contentOf (Act.look f) :=
  fun _ => rfl

theorem run_count (f : Counters → Counters) (w : World Repository) :
    count id f w = (.ok (), (count id f w).2) := rfl

theorem run_nodeState (w : World Repository) :
    nodeState id w = (.ok (w.repo.nodes id), w) := rfl

/-- A call that counts first goes on in a world of the same content. -/
theorem run_counted {α : Type} (f : Counters → Counters) (act : Call α)
    (w : World Repository) :
    ∃ t, contentOf t = contentOf w ∧
      (count id f >>= fun _ => act) w = act t :=
  ⟨(count id f w).2, keeps_count id f w,
    run_bind_of_ok (run_count id f w) _⟩

/-- A node depends on the content of its repository. -/
theorem node_congr {t w : World Repository}
    (h : contentOf t = contentOf w) :
    (t.repo.nodes id).content = (w.repo.nodes id).content :=
  congrArg (fun r => r.nodes id) h

theorem keeps_lookup (path : String) : Keeps contentOf (lookup id path) :=
  keeps_bind (keeps_count id _) fun _ => keeps_look _

/-- A lookup finds what the content has, wherever the counters stand. -/
theorem run_lookup (path : String) (w : World Repository) :
    (lookup id path w).1 = .ok (w.repo.resolve? id path) := by
  unfold lookup
  obtain ⟨t, ht, hrun⟩ := run_counted id
    (fun c => { c with lookups := c.lookups + 1 })
    (Act.look fun r => r.resolve? id path) w
  rw [hrun, ← Repository.resolve?_content w.repo,
    show w.repo.content = t.repo.content from ht.symm,
    Repository.resolve?_content]
  rfl

theorem keeps_property? (path : String) :
    Keeps contentOf ((node id sid).property? path) :=
  keeps_bind (keeps_lookup id path) fun _ => keeps_pure _

/-- A node shows a property by the path to it. -/
theorem run_property? (path : String) (w : World Repository) :
    ((node id sid).property? path w).1 =
      .ok ((w.repo.resolve? id path).map StoredProperty.toProperty) := by
  have h := run_lookup id path w
  show ((lookup id path >>= _) w).1 = _
  rw [run_bind]
  rcases hr : lookup id path w with ⟨_ | found, t⟩ <;> rw [hr] at h
  · cases h
  · cases h
    rfl

theorem keeps_properties : Keeps contentOf (node id sid).properties := by
  refine keeps_bind (keeps_count id _) fun _ =>
    keeps_bind (keeps_look _) fun n => ?_
  split
  · exact keeps_throw _
  · exact keeps_pure _

/-- An enumeration fails if it is made to, and else shows all
properties. -/
theorem run_properties (w : World Repository) :
    ((node id sid).properties w).1 =
      if (w.repo.nodes id).failsEnumeration then
        .error (.other ("cannot enumerate properties of " ++
          (w.repo.nodes id).path))
      else
        .ok ((w.repo.nodes id).allProperties.map
          StoredProperty.toProperty) := by
  show ((count id _ >>= fun _ => nodeState id >>= _) w).1 = _
  obtain ⟨t, ht, hrun⟩ := run_counted id
    (fun c => { c with enumerations := c.enumerations + 1 })
    (nodeState id >>= fun n =>
      if n.failsEnumeration then
        throw (.other ("cannot enumerate properties of " ++ n.path))
      else pure (n.allProperties.map StoredProperty.toProperty)) w
  have hnode := node_congr id ht
  have hfails : (t.repo.nodes id).failsEnumeration =
      (w.repo.nodes id).failsEnumeration :=
    (congrArg NodeState.failsEnumeration hnode :)
  have hpath : (t.repo.nodes id).path = (w.repo.nodes id).path :=
    (congrArg NodeState.path hnode :)
  have hall : (t.repo.nodes id).allProperties =
      (w.repo.nodes id).allProperties :=
    (congrArg NodeState.allProperties hnode :)
  rw [hrun, run_bind_of_ok (run_nodeState id t), hfails, hpath, hall]
  split <;> rfl

theorem keeps_primaryType : Keeps contentOf (node id sid).primaryType :=
  keeps_bind (keeps_count id _) fun _ =>
    keeps_bind (keeps_look _) fun _ => keeps_pure _

/-- A node names its primary type, also while it hides the property. -/
theorem run_primaryType (w : World Repository) :
    ((node id sid).primaryType w).1 =
      .ok (w.repo.nodes id).primaryType := by
  show ((count id _ >>= fun _ => nodeState id >>= _) w).1 = _
  obtain ⟨t, ht, hrun⟩ := run_counted id
    (fun c => { c with typeLookups := c.typeLookups + 1 })
    (nodeState id >>= fun n => pure n.primaryType) w
  have htype : (t.repo.nodes id).primaryType =
      (w.repo.nodes id).primaryType :=
    (congrArg NodeState.primaryType (node_congr id ht) :)
  rw [hrun, run_bind_of_ok (run_nodeState id t), htype]
  rfl

theorem keeps_path : Keeps contentOf (node id sid).path := by
  refine keeps_bind (keeps_look _) fun n => ?_
  split
  · exact keeps_throw _
  · exact keeps_pure _

-- ============================================================= sessions

theorem keeps_namespacePrefixes :
    Keeps contentOf (session sid).namespacePrefixes :=
  keeps_bind (fun w => Repository.content_countSession w.repo sid)
    fun _ => keeps_look _

/-- A session names the prefixes that are registered with it. -/
theorem run_namespacePrefixes (w : World Repository) :
    ((session sid).namespacePrefixes w).1 =
      .ok (w.repo.sessions sid).prefixes := by
  show ((Act.update _ >>= _) w).1 = _
  rw [run_bind]
  show Except.ok (SessionState.prefixes _) = _
  simp [Repository.modifySession]

-- ========================================================= stored forms

/-- The stored forms of a value: an object is a new binary that holds its
stream. -/
def StoredAs : Value → StoredValue → Prop
  | .object o, s => ∃ bytes b, o.streamBytes? = some bytes ∧
      b.source = .buffered bytes ∧ s = .binary b
  | v, s => StoredValue.ofPlain? v = some s

/-- A session finds a stored form exactly where there is one, and does
not touch the repository. -/
theorem store?_cases (v : Value) (w : World Repository) :
    (∃ s w', (session sid).store? v w = (.ok (some s), w') ∧
      StoredAs v s ∧ w'.repo = w.repo) ∨
    ((session sid).store? v w = (.ok none, w) ∧ ∀ s, ¬StoredAs v s) := by
  cases v with
  | object o =>
      cases hbytes : o.streamBytes? with
      | none =>
          simp only [Session.store?, hbytes]
          refine .inr ⟨rfl, ?_⟩
          rintro s ⟨bytes, b, hsome, -⟩
          rw [hbytes] at hsome
          cases hsome
      | some bytes =>
          simp only [Session.store?, hbytes]
          exact .inl ⟨_, _, rfl, ⟨bytes, ⟨_, .buffered bytes⟩, hbytes, rfl,
            rfl⟩, rfl⟩
  | array items => exact .inr ⟨rfl, fun s h => nomatch h⟩
  | _ => exact .inl ⟨_, _, rfl, rfl, rfl⟩

/-- To find a stored form may create a binary, which is no content until a
property holds it. -/
theorem keeps_native (sid : Nat) (name : String) (v : Value) :
    Keeps contentOf (native sid name v) := by
  refine keeps_bind (fun w => ?_) fun stored => ?_
  · rcases store?_cases sid v w with ⟨s, w', hrun, -, hrepo⟩ | ⟨hrun, -⟩ <;>
      rw [hrun]
    exact congrArg Repository.content hrepo
  · cases stored with
    | none => exact keeps_throw _
    | some s => exact keeps_pure s

theorem keeps_nativeAll (sid : Nat) (name : String) (vs : List Value) :
    Keeps contentOf (nativeAll sid name vs) := by
  induction vs with
  | nil => exact keeps_pure []
  | cons v rest ih =>
    exact keeps_bind (keeps_native sid name v) fun s =>
      keeps_bind ih fun ss => keeps_pure (s :: ss)

/-- What buffering makes of a stored value: a binary of unknown length is
replaced by a new one that holds the content. -/
def Buffers : StoredValue → StoredValue → Prop
  | .binary b, s =>
      match b.length? with
      | some _ => s = .binary b
      | none => ∃ c bytes, c.source = Source.buffered bytes ∧ s = .binary c
  | v, s => s = v

/-- Buffering a value leaves the repository alone. It fails only where a
stream does, and else yields what is to be stored. -/
theorem buffered_cases (v : StoredValue) (w : World Repository) :
    (buffered v w).2.repo = w.repo ∧
      ((∃ e, (buffered v w).1 = .error e) ∨
        ∃ s, (buffered v w).1 = .ok s ∧ Buffers v s) := by
  cases v with
  | binary b =>
      cases hlen : b.length? with
      | some n =>
          simp only [buffered, hlen]
          exact ⟨rfl, .inr ⟨.binary b, rfl, by simp [Buffers, hlen]⟩⟩
      | none =>
          simp only [buffered, hlen]
          rw [run_bind]
          have hread : (Act.readAll b w).2.repo = w.repo := by
            unfold Act.readAll
            split <;> rfl
          rcases hr : Act.readAll b w with ⟨e | bytes, t⟩ <;> rw [hr] at hread
          · exact ⟨hread, .inl ⟨e, rfl⟩⟩
          · refine ⟨hread, .inr ⟨.binary ⟨_, .buffered bytes⟩, rfl, ?_⟩⟩
            simp only [Buffers, hlen]
            exact ⟨_, bytes, rfl, rfl⟩
  | _ => exact ⟨rfl, .inr ⟨_, rfl, rfl⟩⟩

/-- Values are buffered one by one, and all of them or none are kept. -/
theorem bufferedAll_cases (vs : List StoredValue) (w : World Repository) :
    (bufferedAll vs w).2.repo = w.repo ∧
      ((∃ e, (bufferedAll vs w).1 = .error e) ∨
        ∃ ss, (bufferedAll vs w).1 = .ok ss ∧
          List.Forall₂ Buffers vs ss) := by
  induction vs generalizing w with
  | nil => exact ⟨rfl, .inr ⟨[], rfl, .nil⟩⟩
  | cons v rest ih =>
    unfold bufferedAll
    obtain ⟨hrepo, hv⟩ := buffered_cases v w
    rcases hr : buffered v w with ⟨e | s, t⟩ <;> rw [hr] at hrepo hv
    · rw [run_bind_of_error hr]
      exact ⟨hrepo, .inl ⟨e, rfl⟩⟩
    · rw [run_bind_of_ok hr]
      have hbuf : Buffers v s := by
        rcases hv with ⟨e, he⟩ | ⟨s', hs', hbuf⟩
        · cases he
        · cases hs'
          exact hbuf
      obtain ⟨hrepo', hrest⟩ := ih t
      rcases hr' : bufferedAll rest t with ⟨e | ss, u⟩ <;>
        rw [hr'] at hrepo' hrest
      · rw [run_bind_of_error hr']
        exact ⟨hrepo'.trans hrepo, .inl ⟨e, rfl⟩⟩
      · rw [run_bind_of_ok hr']
        refine ⟨hrepo'.trans hrepo, .inr ⟨s :: ss, rfl, .cons hbuf ?_⟩⟩
        rcases hrest with ⟨e, he⟩ | ⟨ss', hss', hall⟩
        · cases he
        · cases hss'
          exact hall

/-- The bytes of a new binary are no content until a property holds it. -/
theorem keeps_buffered (v : StoredValue) : Keeps contentOf (buffered v) :=
  fun w => congrArg Repository.content (buffered_cases v w).1

/-- A value that was buffered is the one that was given, or holds its
bytes. -/
theorem buffers_of_run {v s : StoredValue} {w t : World Repository}
    (h : buffered v w = (.ok s, t)) : Buffers v s := by
  rcases (buffered_cases v w).2 with ⟨e, he⟩ | ⟨s', hs', hbuf⟩
  · rw [h] at he
    cases he
  · rw [h] at hs'
    cases hs'
    exact hbuf

theorem keeps_bufferedAll (vs : List StoredValue) :
    Keeps contentOf (bufferedAll vs) :=
  fun w => congrArg Repository.content (bufferedAll_cases vs w).1

theorem buffers_of_run_all {vs ss : List StoredValue}
    {w t : World Repository} (h : bufferedAll vs w = (.ok ss, t)) :
    List.Forall₂ Buffers vs ss := by
  rcases (bufferedAll_cases vs w).2 with ⟨e, he⟩ | ⟨ss', hss', hall⟩
  · rw [h] at he
    cases he
  · rw [h] at hss'
    cases hss'
    exact hall

-- ============================================================= writing

/-- The node with a property set. -/
def NodeState.withProperty (n : NodeState) (p : StoredProperty) :
    NodeState :=
  { n with properties := n.properties.set p.name p }

/-- The node with a property removed. -/
def NodeState.withoutProperty (n : NodeState) (name : String) : NodeState :=
  { n with properties := n.properties.erase name }

namespace NodeState

variable {p : StoredProperty} {name : String}

/-- The property that was set is found under its name, unless that is
protected. -/
theorem property?_withProperty_self (n : NodeState)
    (hp : p.name ≠ primaryTypeName) (hm : p.name ≠ mixinTypesName) :
    (n.withProperty p).property? p.name = some p := by
  rw [property?_of_ne hp hm]
  exact Dict.get?_set_self ..

theorem property?_withoutProperty_self (n : NodeState)
    (hp : name ≠ primaryTypeName) (hm : name ≠ mixinTypesName) :
    (n.withoutProperty name).property? name = none := by
  rw [property?_of_ne hp hm]
  exact Dict.get?_erase_self ..

/-- Under other names everything is as before, types included. -/
theorem property?_withProperty_of_ne (n : NodeState)
    (h : name ≠ p.name) :
    (n.withProperty p).property? name = n.property? name := by
  unfold property?
  rw [show (n.withProperty p).typeProperty? name = n.typeProperty? name
    from rfl]
  simp only [withProperty, Dict.get?_set_of_ne _ h]

theorem property?_withoutProperty_of_ne (n : NodeState) {other : String}
    (h : other ≠ name) :
    (n.withoutProperty name).property? other = n.property? other := by
  unfold property?
  rw [show (n.withoutProperty name).typeProperty? other =
    n.typeProperty? other from rfl]
  simp only [withoutProperty, Dict.get?_erase_of_ne _ h]

end NodeState

/-- The repository with a property of a node set. -/
def Repository.withProperty (r : Repository) (id : Nat)
    (p : StoredProperty) : Repository :=
  r.modifyNode id (·.withProperty p)

/-- The repository with a property of a node removed. -/
def Repository.withoutProperty (r : Repository) (id : Nat)
    (name : String) : Repository :=
  r.modifyNode id (·.withoutProperty name)

/-- The changed node is found at its place. -/
@[simp] theorem Repository.nodes_modifyNode (r : Repository) (id : Nat)
    (f : NodeState → NodeState) : (r.modifyNode id f).nodes id =
      f (r.nodes id) := by
  simp [modifyNode]

/-- Two changes of one node are one change of it. -/
theorem Repository.modifyNode_modifyNode (r : Repository)
    (f g : NodeState → NodeState) :
    (r.modifyNode id f).modifyNode id g =
      r.modifyNode id fun n => g (f n) := by
  simp only [modifyNode, Repository.mk.injEq, and_true]
  funext i
  split <;> rfl

/-- Only the one node matters to a change of it. -/
theorem Repository.modifyNode_congr {r : Repository} {id : Nat}
    {f g : NodeState → NodeState} (h : f (r.nodes id) = g (r.nodes id)) :
    r.modifyNode id f = r.modifyNode id g := by
  simp only [modifyNode, Repository.mk.injEq, and_true]
  funext i
  by_cases hi : i = id
  · simp only [hi, if_pos, h]
  · simp only [if_neg hi]

/-- A change that makes no difference to its node makes none to the
repository. -/
theorem Repository.modifyNode_of_eq {r : Repository} {id : Nat}
    {f : NodeState → NodeState} (h : f (r.nodes id) = r.nodes id) :
    r.modifyNode id f = r := by
  have hnodes : (fun i => if i = id then f (r.nodes i) else r.nodes i) =
      r.nodes := by
    funext i
    by_cases hi : i = id
    · rw [if_pos hi, hi, h]
    · rw [if_neg hi]
  rw [modifyNode, hnodes]

/-- A change of a node that does not look at the counters and leaves them
alone changes the content alike. -/
theorem Repository.content_modifyNode (f : NodeState → NodeState)
    (hf : ∀ n, (f n).content = f n.content) (r : Repository) :
    (r.modifyNode id f).content = r.content.modifyNode id f := by
  have hnodes : (fun i => (if i = id then f (r.nodes i)
      else r.nodes i).content) =
        fun i => if i = id then f (r.nodes i).content
          else (r.nodes i).content := by
    funext i
    split
    · exact hf _
    · rfl
  simp only [content, modifyNode, hnodes]

/-- A property that is set is content. -/
theorem Repository.content_withProperty (r : Repository)
    (p : StoredProperty) :
    (r.withProperty id p).content = r.content.withProperty id p := by
  unfold withProperty
  rw [content_modifyNode]
  exact fun _ => rfl

theorem Repository.content_withoutProperty (r : Repository)
    (name : String) :
    (r.withoutProperty id name).content =
      r.content.withoutProperty id name := by
  unfold withoutProperty
  rw [content_modifyNode]
  exact fun _ => rfl

/-- Only the names of the two types of a node are protected. -/
theorem run_checkWritable {name : String} (hp : name ≠ primaryTypeName)
    (hm : name ≠ mixinTypesName) (w : World Repository) :
    checkWritable name w = (.ok (), w) := by
  simp [checkWritable, hp, hm]

/-- Keeping a property sets it in the content. -/
theorem run_keep (p : StoredProperty) (w : World Repository) :
    contentOf (keep id p w).2 = (contentOf w).withProperty id p :=
  w.repo.content_withProperty id p

theorem run_countWrite_ok (w : World Repository) :
    countWrite id w = (.ok (), (countWrite id w).2) := rfl

/-- A write to a name that is not protected makes what it stores, and
fails without a change or sets the property. -/
theorem write_cases {α : Type} {name : String}
    (hp : name ≠ primaryTypeName) (hm : name ≠ mixinTypesName)
    {make : Call α} (hmake : Keeps contentOf make)
    (property : α → StoredProperty) (w : World Repository) :
    let call : Call Unit := do
      checkWritable name
      countWrite id
      let a ← make
      keep id (property a)
    (∃ e, (call w).1 = .error e ∧ contentOf (call w).2 = contentOf w) ∨
    ∃ a t u, make t = (.ok a, u) ∧ (call w).1 = .ok () ∧
      contentOf (call w).2 = (contentOf w).withProperty id (property a) := by
  intro call
  have hsame : contentOf (make (countWrite id w).2).2 = contentOf w :=
    (hmake _).trans (keeps_count id _ w)
  have hcall : call w = (make >>= fun a => keep id (property a))
      (countWrite id w).2 := by
    show (checkWritable name >>= _) w = _
    rw [run_bind_of_ok (run_checkWritable hp hm w),
      run_bind_of_ok (run_countWrite_ok id w)]
  rw [hcall]
  rcases hrun : make (countWrite id w).2 with ⟨e | a, t⟩ <;>
    rw [hrun] at hsame
  · rw [run_bind_of_error hrun]
    exact .inl ⟨e, rfl, hsame⟩
  · rw [run_bind_of_ok hrun]
    refine .inr ⟨a, _, t, hrun, rfl, ?_⟩
    rw [run_keep, hsame]

/-- Setting one value fails without a change, or sets the property to the
buffered value. -/
theorem setProperty_cases {name : String} (hp : name ≠ primaryTypeName)
    (hm : name ≠ mixinTypesName) (v : StoredValue) (w : World Repository) :
    (∃ e, (setProperty id name v w).1 = .error e ∧
      contentOf (setProperty id name v w).2 = contentOf w) ∨
    (∃ s, (setProperty id name v w).1 = .ok () ∧ Buffers v s ∧
      contentOf (setProperty id name v w).2 =
        (contentOf w).withProperty id (.single name s.propertyType s)) := by
  rcases write_cases id hp hm (keeps_buffered v)
      (fun s => .single name s.propertyType s) w with
    hfail | ⟨s, t, u, hrun, hok, hset⟩
  · exact .inl hfail
  · exact .inr ⟨s, hok, buffers_of_run hrun, hset⟩

/-- Setting several values fails without a change, or sets the property
to the buffered values. -/
theorem setMultiProperty_cases {name : String}
    (hp : name ≠ primaryTypeName) (hm : name ≠ mixinTypesName)
    (vs : List StoredValue) (w : World Repository) :
    (∃ e, (setMultiProperty id name vs w).1 = .error e ∧
      contentOf (setMultiProperty id name vs w).2 = contentOf w) ∨
    (∃ ss type, (setMultiProperty id name vs w).1 = .ok () ∧
      List.Forall₂ Buffers vs ss ∧
      contentOf (setMultiProperty id name vs w).2 =
        (contentOf w).withProperty id (.multi name type ss)) := by
  rcases write_cases id hp hm (keeps_bufferedAll vs)
      (fun ss => .multi name
        ((ss.head?.map StoredValue.propertyType).getD .string) ss) w with
    hfail | ⟨ss, t, u, hrun, hok, hset⟩
  · exact .inl hfail
  · exact .inr ⟨ss, _, hok, buffers_of_run_all hrun, hset⟩

/-- A property that is not protected can be removed, there or not. -/
theorem run_removeProperty {name : String} (hp : name ≠ primaryTypeName)
    (hm : name ≠ mixinTypesName) (w : World Repository) :
    ((node id sid).removeProperty name w).1 = .ok () ∧
      contentOf ((node id sid).removeProperty name w).2 =
        (contentOf w).withoutProperty id name := by
  have hcount := keeps_count id (fun c => { c with writes := c.writes + 1 }) w
  have hrun : (node id sid).removeProperty name w =
      (.ok (), ⟨(countWrite id w).2.streams,
        (countWrite id w).2.repo.withoutProperty id name⟩) := by
    show (checkWritable name >>= _) w = _
    rw [run_bind_of_ok (run_checkWritable hp hm w)]
    rfl
  rw [hrun]
  refine ⟨rfl, ?_⟩
  rw [contentOf, Repository.content_withoutProperty]
  exact congrArg (fun r => Repository.withoutProperty r id name) hcount

end ContentProperties.Memory
