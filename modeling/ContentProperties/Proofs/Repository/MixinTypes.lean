/-
Giving a node the mixin types that are wanted. What the two loops do is
settled for any node whatever, failing calls included
(`reconcileMixins_of_mixins`): they come to the same as removing the
mixins that are not wanted, one by one, and then adding those that are
missing, one by one. The working set that the loops hand on is gone from
that statement.

For a node in memory each of these calls is one write, which changes the
list of mixins by one name (`run_removeMixin`, `run_addMixin`). No node
that calls can bring about has a mixin twice (`NodeState.Sound`), so no
removal misses.
-/
import ContentProperties.Proofs.Repository.NodeCalls

namespace ContentProperties

-- ======================================================= what to change

/-- The mixins of a node that nobody asks for, in the node's order. -/
def unwantedMixins (present wanted : List String) : List String :=
  present.filter (· ∉ wanted)

/-- The names asked for that the node does not have, in the order in
which they first occur, and each of them once. -/
def missingMixins (present wanted : List String) : List String :=
  (wanted.filter (· ∉ present)).eraseDups

/-- The mixins that come out: those of the node that are asked for, in
the node's order, and then those that were missing. -/
def reconciledMixins (present wanted : List String) : List String :=
  present.filter (· ∈ wanted) ++ missingMixins present wanted

/-- Of each name the first occurrence stays. -/
theorem nodup_eraseDups (names : List String) : names.eraseDups.Nodup := by
  match names with
  | [] => exact List.nodup_nil
  | name :: rest =>
    rw [List.eraseDups_cons, List.nodup_cons]
    refine ⟨?_, nodup_eraseDups _⟩
    simp [List.mem_eraseDups]
termination_by names.length
decreasing_by exact Nat.lt_succ_of_le (List.length_filter_le _ rest)

variable {present wanted : List String}

theorem mem_missingMixins {name : String} :
    name ∈ missingMixins present wanted ↔
      name ∈ wanted ∧ name ∉ present := by
  simp [missingMixins, List.mem_eraseDups]

/-- What comes out is what was asked for, as a set. -/
theorem mem_reconciledMixins {name : String} :
    name ∈ reconciledMixins present wanted ↔ name ∈ wanted := by
  simp only [reconciledMixins, List.mem_append, mem_missingMixins,
    List.mem_filter, decide_eq_true_eq]
  tauto

theorem nodup_unwantedMixins (h : present.Nodup) :
    (unwantedMixins present wanted).Nodup :=
  h.filter _

theorem nodup_missingMixins : (missingMixins present wanted).Nodup :=
  nodup_eraseDups _

/-- A mixin that is kept is not missing, so none comes twice. -/
theorem nodup_reconciledMixins (h : present.Nodup) :
    (reconciledMixins present wanted).Nodup := by
  refine List.nodup_append.2 ⟨h.filter _, nodup_missingMixins, ?_⟩
  rintro name hkept _ hmissing rfl
  exact (mem_missingMixins.1 hmissing).2 (List.mem_filter.1 hkept).1

section Settled

variable (hsame : ∀ name, name ∈ present ↔ name ∈ wanted)

include hsame

/-- Nothing is removed from a node that has what is asked for. -/
theorem unwantedMixins_of_same : unwantedMixins present wanted = [] := by
  simp only [unwantedMixins, List.filter_eq_nil_iff, decide_eq_true_eq,
    not_not]
  exact fun name => (hsame name).1

/-- Nor is anything added to it. -/
theorem missingMixins_of_same : missingMixins present wanted = [] := by
  rw [missingMixins, List.filter_eq_nil_iff.2, List.eraseDups_nil]
  simp only [decide_eq_true_eq, not_not]
  exact fun name => (hsame name).2

theorem reconciledMixins_of_same :
    reconciledMixins present wanted = present := by
  rw [reconciledMixins, missingMixins_of_same hsame, List.append_nil,
    List.filter_eq_self]
  simp only [decide_eq_true_eq]
  exact fun name => (hsame name).1

end Settled

-- ============================================================ any node

namespace Node

variable {σ : Type} (node : Node σ)

/-- The first loop removes what is not wanted. What it hands on is the
names that no mixin has taken; each mixin takes its name away, so it
matters that none comes twice. -/
theorem dropUnwanted_eq (h : present.Nodup) (wanted : List String) :
    node.dropUnwanted wanted present = (do
      (unwantedMixins present wanted).forM node.removeMixin
      pure (wanted.filter (· ∉ present))) := by
  induction present generalizing wanted with
  | nil => simp [dropUnwanted, unwantedMixins]
  | cons mixin rest ih =>
    obtain ⟨hnot, hrest⟩ := List.nodup_cons.1 h
    by_cases hmem : mixin ∈ wanted
    · have hunwanted : unwantedMixins rest (wanted.filter (· ≠ mixin)) =
          unwantedMixins (mixin :: rest) wanted := by
        rw [unwantedMixins, unwantedMixins, List.filter_cons_of_neg (by simpa)]
        refine List.filter_congr fun name hname => ?_
        have hne : name ≠ mixin := fun heq => hnot (heq ▸ hname)
        simp [hne]
      have hleft : (wanted.filter (· ≠ mixin)).filter (· ∉ rest) =
          wanted.filter (· ∉ mixin :: rest) := by
        rw [List.filter_filter]
        refine List.filter_congr fun name _ => ?_
        simp [Bool.and_comm]
      rw [dropUnwanted, if_pos (by simpa using hmem), ih hrest, hunwanted,
        hleft]
    · have hunwanted : unwantedMixins (mixin :: rest) wanted =
          mixin :: unwantedMixins rest wanted :=
        List.filter_cons_of_pos (by simpa)
      have hleft : wanted.filter (· ∉ mixin :: rest) =
          wanted.filter (· ∉ rest) := by
        refine List.filter_congr fun name hname => ?_
        have hne : name ≠ mixin := fun heq => hmem (heq ▸ hname)
        simp [hne]
      rw [dropUnwanted, if_neg (by simpa using hmem), ih hrest, hunwanted,
        hleft, List.forM_eq_forM, List.forM_cons, bind_assoc]

/-- The second loop adds the names that are missing. A name that was
added is missing no more, so the next time it is passed over. -/
theorem addMissing_eq (missing names : List String) :
    node.addMissing missing names =
      (names.filter (· ∈ missing)).eraseDups.forM node.addMixin := by
  induction names generalizing missing with
  | nil => rfl
  | cons name rest ih =>
    by_cases hmem : name ∈ missing
    · have hrest : rest.filter (· ∈ missing.filter (· ≠ name)) =
          (rest.filter (· ∈ missing)).filter (fun other => !other == name) := by
        rw [List.filter_filter]
        refine List.filter_congr fun other _ => ?_
        simp [Bool.and_comm, beq_eq_decide]
      rw [addMissing, if_pos (by simpa using hmem), ih, hrest,
        List.filter_cons_of_pos (by simpa), List.eraseDups_cons]
      rfl
    · rw [addMissing, if_neg (by simpa using hmem), ih,
        List.filter_cons_of_neg (by simpa)]

/-- If a node has no mixin twice, it is given those asked for by one
removal for each that is not wanted and then one addition for each that
is missing. -/
theorem reconcileMixins_of_mixins {w : World σ}
    (hrun : node.mixins w = (.ok present, w)) (h : present.Nodup)
    (wanted : List String) :
    node.reconcileMixins wanted w = (do
      (unwantedMixins present wanted).forM node.removeMixin
      (missingMixins present wanted).forM node.addMixin) w := by
  have hagain : wanted.filter (· ∈ wanted.filter (· ∉ present)) =
      wanted.filter (· ∉ present) := by
    refine List.filter_congr fun name hname => ?_
    simp [hname]
  rw [reconcileMixins, run_bind_of_ok hrun, dropUnwanted_eq _ h, bind_assoc]
  simp only [pure_bind, addMissing_eq, hagain]
  rfl

end Node

-- ====================================================== nodes in memory

namespace Memory

variable (id sid : Nat)

/-- The world in which a node has other mixins, after some more writes to
it. -/
def withMixins (mixins : List String) (writes : Nat)
    (w : World Repository) : World Repository :=
  ⟨w.streams, w.repo.modifyNode id fun n =>
    { n with
      mixins := mixins
      counters :=
        { n.counters with writes := n.counters.writes + writes } }⟩

theorem mixins_withMixins (mixins : List String) (writes : Nat)
    (w : World Repository) :
    ((withMixins id mixins writes w).repo.nodes id).mixins = mixins := by
  simp [withMixins]

/-- The last list stays, and the writes add up. -/
theorem withMixins_withMixins (first second : List String) (m n : Nat)
    (w : World Repository) :
    withMixins id second n (withMixins id first m w) =
      withMixins id second (m + n) w := by
  simp only [withMixins, Repository.modifyNode_modifyNode, Nat.add_assoc]

theorem withMixins_self (w : World Repository) :
    withMixins id (w.repo.nodes id).mixins 0 w = w := by
  rw [withMixins, Repository.modifyNode_of_eq rfl]

variable {id} {w : World Repository} {name : String}

theorem run_mixins (w : World Repository) :
    (node id sid).mixins w = (.ok (w.repo.nodes id).mixins, w) := rfl

/-- A write that is counted changes no mixin. -/
theorem run_countWrite (w : World Repository) :
    countWrite id w =
      (.ok (), withMixins id (w.repo.nodes id).mixins 1 w) := by
  show (Except.ok (), (⟨w.streams, _⟩ : World Repository)) = _
  rw [withMixins, Repository.modifyNode_congr]
  rfl

/-- A change that only concerns the mixins sets them. -/
theorem run_changeMixins {first second : List String}
    {f : NodeState → NodeState}
    (hf : ∀ n, n.mixins = first → f n = { n with mixins := second })
    (writes : Nat) :
    changeNode id f (withMixins id first writes w) =
      (.ok (), withMixins id second writes w) := by
  show (Except.ok (), (⟨w.streams, _⟩ : World Repository)) = _
  rw [withMixins, Repository.modifyNode_modifyNode, withMixins,
    Repository.modifyNode_congr]
  exact hf _ rfl

/-- Removing a mixin that is there is one write. -/
theorem run_removeMixin (h : name ∈ (w.repo.nodes id).mixins) :
    (node id sid).removeMixin name w = (.ok (),
      withMixins id ((w.repo.nodes id).mixins.filter (· ≠ name)) 1 w) := by
  show (countWrite id >>= _) w = _
  rw [run_bind_of_ok (run_countWrite w), run_bind_of_ok (run_nodeState id _),
    mixins_withMixins, if_pos (by simpa using h)]
  exact run_changeMixins (fun n hn => by rw [hn]) 1

/-- Adding a mixin that is not there is one write. -/
theorem run_addMixin (h : name ∉ (w.repo.nodes id).mixins) :
    (node id sid).addMixin name w =
      (.ok (), withMixins id ((w.repo.nodes id).mixins ++ [name]) 1 w) := by
  show (countWrite id >>= _) w = _
  rw [run_bind_of_ok (run_countWrite w)]
  refine run_changeMixins (fun n hn => ?_) 1
  rw [if_neg (by simpa [hn] using h), hn]

/-- Removing mixins one by one. -/
theorem run_removeMixins {names : List String} (hnames : names.Nodup)
    (h : ∀ name ∈ names, name ∈ (w.repo.nodes id).mixins) :
    names.forM (node id sid).removeMixin w = (.ok (),
      withMixins id ((w.repo.nodes id).mixins.filter (· ∉ names))
        names.length w) := by
  induction names generalizing w with
  | nil =>
    simp only [List.not_mem_nil, not_false_eq_true, decide_true,
      List.filter_true, List.length_nil, withMixins_self]
    rfl
  | cons name rest ih =>
    obtain ⟨hnot, hrest⟩ := List.nodup_cons.1 hnames
    have hstep := run_removeMixin sid (h name List.mem_cons_self)
    have hleft : ∀ other ∈ rest, other ∈
        (w.repo.nodes id).mixins.filter (· ≠ name) := by
      intro other hother
      have hne : other ≠ name := fun heq => hnot (heq ▸ hother)
      simpa [hne] using h other (List.mem_cons_of_mem _ hother)
    have hfilter : ((w.repo.nodes id).mixins.filter (· ≠ name)).filter
        (· ∉ rest) = (w.repo.nodes id).mixins.filter (· ∉ name :: rest) := by
      rw [List.filter_filter]
      refine List.filter_congr fun other _ => ?_
      simp [Bool.and_comm]
    rw [List.forM_eq_forM, List.forM_cons, run_bind_of_ok hstep,
      ← List.forM_eq_forM, ih hrest (by rwa [mixins_withMixins]),
      mixins_withMixins, withMixins_withMixins, hfilter, Nat.add_comm,
      List.length_cons]

/-- Adding mixins one by one. -/
theorem run_addMixins {names : List String} (hnames : names.Nodup)
    (h : ∀ name ∈ names, name ∉ (w.repo.nodes id).mixins) :
    names.forM (node id sid).addMixin w = (.ok (),
      withMixins id ((w.repo.nodes id).mixins ++ names)
        names.length w) := by
  induction names generalizing w with
  | nil =>
    rw [List.append_nil, List.length_nil, withMixins_self]
    rfl
  | cons name rest ih =>
    obtain ⟨hnot, hrest⟩ := List.nodup_cons.1 hnames
    have hstep := run_addMixin sid (h name List.mem_cons_self)
    have hfresh : ∀ other ∈ rest,
        other ∉ (w.repo.nodes id).mixins ++ [name] := by
      intro other hother
      have hne : other ≠ name := fun heq => hnot (heq ▸ hother)
      simpa [hne] using h other (List.mem_cons_of_mem _ hother)
    rw [List.forM_eq_forM, List.forM_cons, run_bind_of_ok hstep,
      ← List.forM_eq_forM, ih hrest (by rwa [mixins_withMixins]),
      mixins_withMixins, withMixins_withMixins, List.append_assoc,
      List.singleton_append, Nat.add_comm, List.length_cons]

/-- Gives a node in memory the mixins asked for. -/
theorem run_reconcileMixins (h : (w.repo.nodes id).mixins.Nodup)
    (wanted : List String) :
    (node id sid).reconcileMixins wanted w = (.ok (),
      withMixins id (reconciledMixins (w.repo.nodes id).mixins wanted)
        ((unwantedMixins (w.repo.nodes id).mixins wanted).length +
          (missingMixins (w.repo.nodes id).mixins wanted).length) w) := by
  have hremoved : ∀ name ∈ unwantedMixins (w.repo.nodes id).mixins wanted,
      name ∈ (w.repo.nodes id).mixins :=
    fun name hname => (List.mem_filter.1 hname).1
  have hkept : (w.repo.nodes id).mixins.filter
      (· ∉ unwantedMixins (w.repo.nodes id).mixins wanted) =
        (w.repo.nodes id).mixins.filter (· ∈ wanted) := by
    refine List.filter_congr fun name hname => ?_
    simp [unwantedMixins, hname]
  rw [Node.reconcileMixins_of_mixins _ (run_mixins sid w) h,
    run_bind_of_ok
      (run_removeMixins sid (nodup_unwantedMixins h) hremoved), hkept]
  -- What was removed is not asked for, so it is not added again.
  have hadded : ∀ name ∈ missingMixins (w.repo.nodes id).mixins wanted,
      name ∉ (w.repo.nodes id).mixins.filter (· ∈ wanted) :=
    fun name hname hkept => (mem_missingMixins.1 hname).2
      (List.mem_filter.1 hkept).1
  rw [run_addMixins sid nodup_missingMixins (by rwa [mixins_withMixins]),
    mixins_withMixins, withMixins_withMixins]
  rfl

/-- The mixins of a node after it was given those asked for: the ones it
had and keeps, in its order, and then the ones it lacked, in the order in
which they are asked for first. Every mixin removed and every mixin added
is one write, and there are no others. No mixin is there twice then, as
none was before, and asking for the same names again, in whatever order
and however often each, writes nothing and leaves the world as it is. To
ask for nothing is to ask for the empty list. -/
theorem reconcileMixins_keeps_order_and_settles (id sid : Nat)
    (w : World Repository) (h : (w.repo.nodes id).mixins.Nodup)
    (names? : Option (List String)) :
    let present := (w.repo.nodes id).mixins
    let wanted := names?.getD []
    let removed := present.filter (· ∉ wanted)
    let added := (wanted.filter (· ∉ present)).eraseDups
    let settled := withMixins id (present.filter (· ∈ wanted) ++ added)
      (removed.length + added.length) w
    (node id sid).reconcileMixins wanted w = (.ok (), settled) ∧
      (node id sid).reconcileMixins wanted w = (do
        removed.forM (node id sid).removeMixin
        added.forM (node id sid).addMixin) w ∧
      (settled.repo.nodes id).mixins.Nodup ∧
      ∀ again? : Option (List String),
        (∀ name, name ∈ again?.getD [] ↔ name ∈ wanted) →
        (node id sid).reconcileMixins (again?.getD []) settled =
          (.ok (), settled) := by
  intro present wanted removed added settled
  have hnow : (settled.repo.nodes id).mixins =
      reconciledMixins present wanted :=
    mixins_withMixins ..
  have hnodup : (settled.repo.nodes id).mixins.Nodup :=
    hnow ▸ nodup_reconciledMixins h
  refine ⟨run_reconcileMixins sid h wanted,
    Node.reconcileMixins_of_mixins _ (run_mixins sid w) h wanted, hnodup,
    fun again? hsame => ?_⟩
  have hsettled : ∀ name, name ∈ (settled.repo.nodes id).mixins ↔
      name ∈ again?.getD [] := by
    intro name
    rw [hnow, mem_reconciledMixins, hsame]
  rw [run_reconcileMixins sid hnodup, reconciledMixins_of_same hsettled,
    unwantedMixins_of_same hsettled, missingMixins_of_same hsettled]
  exact congrArg (Prod.mk _) (withMixins_self id settled)

/-- One mixin goes, one comes although it is asked for twice, and one
stays: two writes. -/
theorem reconcileMixins_of_three :
    let w := withMixins 0 ["mix:a", "mix:b"] 0 ⟨Streams.empty, .empty⟩
    (w.repo.nodes 0).mixins.Nodup ∧
      (node 0 0).reconcileMixins ["mix:c", "mix:b", "mix:c"] w =
        (.ok (), withMixins 0 ["mix:b", "mix:c"] 2 w) := by
  intro w
  have h : (w.repo.nodes 0).mixins.Nodup := by decide
  have hrun := (reconcileMixins_keeps_order_and_settles 0 0 w h
    (some ["mix:c", "mix:b", "mix:c"])).1
  exact ⟨h, hrun⟩

end Memory

end ContentProperties
