/-
Nodes that keep a log. Any node can be made to note what it is asked
for: enumerations, lookups, the primary type, and the namespace prefixes
of its session. `Node.logged` has the log beside the state that the node
acts on, and passes every call on.

# Calls that follow others

A call of a logged node does what the call of the node does, and adds to
the log. `Opens` says that of two calls, which questions the log has
gained first, and which it may have gained then; `Follows` is the case
where none is sure. Both are closed under sequencing, so they are read
off a definition line by line, and show at once that the log changes
nothing and what is asked for.
-/
import ContentProperties.Proofs.Calls

namespace ContentProperties

-- ============================================================= the log

/-- What a map asks a node or its session for. -/
inductive NodeCall where
  | enumeration
  | lookup (path : String)
  | primaryType
  | namespacePrefixes
  deriving DecidableEq

/-- The state of a repository, and the log of one of its nodes. -/
structure Logged (σ : Type) where
  repo : σ
  calls : List NodeCall

variable {σ α β γ : Type}

/-- The world with a log. -/
def World.logged (w : World σ) (log : List NodeCall) : World (Logged σ) :=
  ⟨w.streams, ⟨w.repo, log⟩⟩

/-- The call on a world with a log, which notes what is asked for. -/
def Act.logged (asked : List NodeCall) (act : Act σ α) :
    Act (Logged σ) α := fun w =>
  let (r, v) := act ⟨w.streams, w.repo.repo⟩
  (r, v.logged (w.repo.calls ++ asked))

/-- Asking a property is not noted. -/
def Property.logged (p : Property σ) : Property (Logged σ) where
  name := p.name
  type := p.type
  multiple := p.multiple
  value := p.value.logged []
  length := p.length.logged []
  lengths := p.lengths.logged []

def Session.logged (session : Session σ) : Session (Logged σ) where
  namespacePrefixes := session.namespacePrefixes.logged [.namespacePrefixes]
  createBinary bytes := (session.createBinary bytes).logged []

/-- The node, with a log of what it is asked for. -/
def Node.logged (n : Node σ) : Node (Logged σ) where
  session := n.session.logged
  path := n.path.logged []
  hasProperty name := (n.hasProperty name).logged [.lookup name]
  property name :=
    Property.logged <$> (n.property name).logged [.lookup name]
  property? name :=
    Option.map Property.logged <$> (n.property? name).logged [.lookup name]
  properties :=
    List.map Property.logged <$> n.properties.logged [.enumeration]
  primaryType := n.primaryType.logged [.primaryType]
  mixins := n.mixins.logged []
  addMixin name := (n.addMixin name).logged []
  removeMixin name := (n.removeMixin name).logged []
  setPrimaryType name := (n.setPrimaryType name).logged []
  setProperty name v := (n.setProperty name v).logged []
  setMultiProperty name vs := (n.setMultiProperty name vs).logged []
  removeProperty name := (n.removeProperty name).logged []

-- ================================================ calls that follow others

section Following

variable {ε S S' : Type} {embed : S → List NodeCall → S'}
  {may : NodeCall → Prop} {f : α → β}

/-- On a state with a log the second call does what the first does without
one: it yields the result that corresponds, in the state that
corresponds. To the log it adds first the given questions, whatever comes
of them, and then only what it may ask for. -/
def Opens (embed : S → List NodeCall → S') (first : List NodeCall)
    (may : NodeCall → Prop) (f : α → β) (x : ExceptT ε (StateM S) α)
    (y : ExceptT ε (StateM S') β) : Prop :=
  ∀ s log, ∃ asked,
    y (embed s log) =
      ((x s).1.map f, embed (x s).2 (log ++ (first ++ asked))) ∧
    ∀ call ∈ asked, may call

/-- The second call does what the first does, and adds to the log only what
it may ask for. -/
abbrev Follows (embed : S → List NodeCall → S') (may : NodeCall → Prop)
    (f : α → β) (x : ExceptT ε (StateM S) α)
    (y : ExceptT ε (StateM S') β) : Prop :=
  Opens embed [] may f x y

/-- Nothing may be asked for. -/
def Quiet : NodeCall → Prop := fun _ => False

variable {first : List NodeCall}

/-- A call that adds nothing to the log may follow. -/
theorem follows_of_run {x : ExceptT ε (StateM S) α}
    {y : ExceptT ε (StateM S') β}
    (h : ∀ s log, y (embed s log) = ((x s).1.map f, embed (x s).2 log)) :
    Follows embed may f x y := by
  intro s log
  refine ⟨[], ?_, List.forall_mem_nil _⟩
  rw [List.append_nil, List.append_nil]
  exact h s log

/-- Questions that may be asked need not be told apart from others. -/
theorem Opens.follows {x : ExceptT ε (StateM S) α}
    {y : ExceptT ε (StateM S') β} (hxy : Opens embed first may f x y)
    (hfirst : ∀ call ∈ first, may call) : Follows embed may f x y := by
  intro s log
  obtain ⟨asked, hrun, hasked⟩ := hxy s log
  exact ⟨first ++ asked, hrun, List.forall_mem_append.2 ⟨hfirst, hasked⟩⟩

/-- What asks for nothing asks for nothing that it may not. -/
theorem Follows.of_quiet {x : ExceptT ε (StateM S) α}
    {y : ExceptT ε (StateM S') β} (h : Follows embed Quiet f x y) :
    Follows embed may f x y := by
  intro s log
  obtain ⟨asked, hrun, hasked⟩ := h s log
  exact ⟨asked, hrun, fun call hcall => (hasked call hcall).elim⟩

/-- Where nothing may be asked for, the log is as it was. -/
theorem Follows.run_of_quiet {x : ExceptT ε (StateM S) α}
    {y : ExceptT ε (StateM S') β} (h : Follows embed Quiet f x y) (s : S)
    (log : List NodeCall) :
    y (embed s log) = ((x s).1.map f, embed (x s).2 log) := by
  obtain ⟨asked, hrun, hasked⟩ := h s log
  rw [hrun, List.eq_nil_iff_forall_not_mem.2 hasked, List.append_nil,
    List.append_nil]

theorem follows_pure (a : α) :
    Follows embed may f (pure a : ExceptT ε (StateM S) α) (pure (f a)) :=
  follows_of_run fun _ _ => rfl

theorem follows_throw (e : ε) :
    Follows embed may f (throw e : ExceptT ε (StateM S) α) (throw e) :=
  follows_of_run fun _ _ => rfl

/-- Calls that follow each other follow those that do. The first of them
settles what is asked first. -/
theorem follows_bind {α' β' : Type} {g : α' → β'}
    {x : ExceptT ε (StateM S) α} {y : ExceptT ε (StateM S') β}
    {xs : α → ExceptT ε (StateM S) α'} {ys : β → ExceptT ε (StateM S') β'}
    (hx : Opens embed first may f x y)
    (hxs : ∀ a, Follows embed may g (xs a) (ys (f a))) :
    Opens embed first may g (x >>= xs) (y >>= ys) := by
  intro s log
  obtain ⟨asked, hrun, hasked⟩ := hx s log
  rw [run_bind, run_bind, hrun]
  rcases x s with ⟨e | a, t⟩
  · exact ⟨asked, rfl, hasked⟩
  · obtain ⟨more, hrest, hmore⟩ := hxs a t (log ++ (first ++ asked))
    refine ⟨asked ++ more, ?_, List.forall_mem_append.2 ⟨hasked, hmore⟩⟩
    rw [← List.append_assoc first, ← List.append_assoc log (first ++ asked)]
    exact hrest

/-- What comes before the first question must be quiet, and must not fail:
a failure would leave the question out. -/
theorem opens_after {α' β' : Type} {g : α' → β'}
    {x : ExceptT ε (StateM S) α} {y : ExceptT ε (StateM S') β}
    {xs : α → ExceptT ε (StateM S) α'} {ys : β → ExceptT ε (StateM S') β'}
    (hx : Follows embed Quiet f x y) (hok : ∀ s, ∃ a t, x s = (.ok a, t))
    (hxs : ∀ a, Opens embed first may g (xs a) (ys (f a))) :
    Opens embed first may g (x >>= xs) (y >>= ys) := by
  intro s log
  obtain ⟨a, t, ha⟩ := hok s
  rw [run_bind, run_bind, hx.run_of_quiet, ha]
  exact hxs a t log

theorem follows_map {α' β' : Type} {g : α' → β'} {h : α → α'} {k : β → β'}
    {x : ExceptT ε (StateM S) α} {y : ExceptT ε (StateM S') β}
    (hx : Opens embed first may f x y) (hcomm : ∀ a, k (f a) = g (h a)) :
    Opens embed first may g (h <$> x) (k <$> y) := by
  rw [← bind_pure_comp, ← bind_pure_comp]
  refine follows_bind hx fun a => ?_
  rw [hcomm]
  exact follows_pure (h a)

/-- The results of the second call may be mapped to what corresponds. -/
theorem follows_mapped {x : ExceptT ε (StateM S) α}
    {y : ExceptT ε (StateM S') α} (hx : Opens embed first may id x y)
    (k : α → β) : Opens embed first may k x (k <$> y) := by
  rw [← bind_pure x, ← bind_pure_comp]
  exact follows_bind hx follows_pure

theorem follows_discard {x : ExceptT ε (StateM S) α}
    {y : ExceptT ε (StateM S') β} (hx : Follows embed may f x y) :
    Follows embed may id (discard x) (discard y) :=
  follows_map hx fun _ => rfl

end Following

-- ================================================= calls of a logged node

section Calls

variable {may : NodeCall → Prop}

/-- A call that is noted asks first for what is noted, and for nothing
else. -/
theorem opens_logged (first : List NodeCall) (act : Act σ α) :
    Opens World.logged first may id act (act.logged first) := by
  intro w log
  refine ⟨[], ?_, List.forall_mem_nil _⟩
  rw [List.append_nil]
  show ((act w).1, (act w).2.logged (log ++ first)) = _
  rcases act w with ⟨_ | _, v⟩ <;> rfl

/-- The calls of a node with a log follow those of the node. -/
theorem follows_logged {asked : List NodeCall}
    (h : ∀ call ∈ asked, may call) (act : Act σ α) :
    Follows World.logged may id act (act.logged asked) :=
  (opens_logged asked act).follows h

/-- Enumerating is noted before anything else is asked. -/
theorem opens_properties (n : Node σ) :
    Opens World.logged [.enumeration] may (List.map Property.logged)
      n.properties n.logged.properties :=
  follows_mapped (opens_logged _ _) _

/-- Calls that are not noted are quiet. -/
theorem follows_unnoted (act : Act σ α) :
    Follows World.logged may id act (act.logged []) :=
  opens_logged [] act

/-- Looking a property up is noted. -/
theorem follows_property? (n : Node σ) (name : String)
    (h : may (.lookup name)) :
    Follows World.logged may (Option.map Property.logged)
      (n.property? name) (n.logged.property? name) :=
  follows_mapped (follows_logged (List.forall_mem_singleton.2 h) _) _

/-- Storing creates a binary at most, which is not noted. -/
theorem follows_store? (session : Session σ) (v : Value) :
    Follows World.logged may id (session.store? v)
      (session.logged.store? v) := by
  unfold Session.store?
  split
  · next o =>
    split
    · exact follows_bind (follows_unnoted _) fun _ => follows_pure _
    · exact follows_pure _
  · exact follows_pure _

end Calls

end ContentProperties
