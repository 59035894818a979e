/-
More on ordered dictionaries: adding an entry without replacing one, and
how setting and dropping an entry commute with changing all entries, with
taking a part of them, and with a relation between two lists of entries.

The relation is the shape of a simulation between two dictionaries with
different names for the same things: it goes through as long as related
entries agree on whether they are the one that is meant.
-/
import ContentProperties.Dict
import Mathlib.Data.List.Forall2

namespace ContentProperties

-- ============================================== entries that are added

/-- Adds an entry, unless there is one under the name already. -/
def Dict.addNew {α : Type} (d : Dict α) (name : String) (a : α) : Dict α :=
  match d.get? name with
  | some _ => d
  | none => d.set name a

namespace Dict

variable {α β : Type} {d : Dict α} {name : String}

theorem addNew_of_some {b : α} (h : d.get? name = some b) (a : α) :
    d.addNew name a = d := by
  simp [addNew, h]

theorem addNew_of_none (h : d.get? name = none) (a : α) :
    d.addNew name a = d.set name a := by
  simp [addNew, h]

/-- An entry that is added comes behind all others. -/
theorem entries_addNew_of_none (h : d.get? name = none) (a : α) :
    (d.addNew name a).entries = d.entries ++ [(name, a)] := by
  rw [addNew_of_none h]
  rcases d.set_cases name a with ⟨_, b, _, -, hget, -⟩ | ⟨-, -, hset⟩
  · rw [h] at hget
    cases hget
  · exact hset

/-- The entry comes last, if there is none under the name. -/
theorem entries_addNew (d : Dict α) (name : String) (a : α) :
    (d.addNew name a).entries = d.entries ++
      if (d.get? name).isNone then [(name, a)] else [] := by
  cases h : d.get? name with
  | none => exact entries_addNew_of_none h a
  | some b =>
      rw [addNew_of_some h]
      exact (List.append_nil _).symm

theorem get?_addNew_self (d : Dict α) (name : String) (a : α) :
    (d.addNew name a).get? name = some ((d.get? name).getD a) := by
  cases h : d.get? name with
  | none => rw [addNew_of_none h, get?_set_self]; rfl
  | some b => rw [addNew_of_some h, h]; rfl

theorem get?_addNew_of_ne (d : Dict α) {name other : String}
    (h : other ≠ name) (a : α) :
    (d.addNew name a).get? other = d.get? other := by
  cases hget : d.get? name with
  | none => rw [addNew_of_none hget, get?_set_of_ne _ h]
  | some b => rw [addNew_of_some hget]

/-- What is there stays. -/
theorem get?_addNew_of_some {other : String} {b : α}
    (h : d.get? other = some b) (name : String) (a : α) :
    (d.addNew name a).get? other = some b := by
  by_cases heq : other = name
  · subst heq
    rw [addNew_of_some h, h]
  · rw [get?_addNew_of_ne d heq, h]

/-- An entry is the one that was added, or was there before. -/
theorem of_get?_addNew {other : String} {a b : α}
    (h : (d.addNew name a).get? other = some b) :
    (other = name ∧ b = a) ∨ d.get? other = some b := by
  by_cases heq : other = name
  · subst heq
    cases hget : d.get? other with
    | none =>
        rw [addNew_of_none hget, get?_set_self] at h
        cases h
        exact .inl ⟨rfl, rfl⟩
    | some c =>
        rw [addNew_of_some hget, hget] at h
        exact .inr h
  · rw [get?_addNew_of_ne d heq] at h
    exact .inr h

-- ============================================================== lookups

theorem mem_entries_iff {a : α} :
    (name, a) ∈ d.entries ↔ d.get? name = some a :=
  (lookup_eq_some_iff_mem d.nodup).symm

theorem mem_keys_iff : name ∈ d.keys ↔ (d.get? name).isSome := by
  rw [← Option.ne_none_iff_isSome]
  exact not_iff_not.1 (by rw [not_not]; exact lookup_eq_none_iff.symm)

theorem get?_erase_self (d : Dict α) (name : String) :
    (d.erase name).get? name = none := by
  refine lookup_eq_none_iff.2 fun hmem => ?_
  obtain ⟨e, he, heq⟩ := List.mem_map.1 hmem
  simpa [heq] using (List.mem_filter.1 he).2

theorem get?_erase_of_ne (d : Dict α) {other : String} (h : other ≠ name) :
    (d.erase name).get? other = d.get? other := by
  have hlist : ∀ es : List (String × α),
      (without name es).lookup other = es.lookup other := by
    intro es
    induction es with
    | nil => rfl
    | cons e rest ih =>
      obtain ⟨k, b⟩ := e
      unfold without at ih ⊢
      rw [List.filter_cons]
      by_cases hk : k = name
      · subst hk
        simp only [ne_eq, not_true, decide_false, Bool.false_eq_true, if_false,
          List.lookup_cons, beq_false_of_ne h]
        exact ih
      · simp only [ne_eq, hk, not_false_eq_true, decide_true, if_true,
          List.lookup_cons, ih]
  exact hlist d.entries

/-- What is there after setting an entry is that entry or was there
before. -/
theorem of_mem_set {a : α} {e : String × α}
    (h : e ∈ (d.set name a).entries) : e = (name, a) ∨ e ∈ d.entries := by
  rcases d.set_cases name a with
    ⟨front, b, back, hes, -, hset⟩ | ⟨-, -, hset⟩
  · rw [hset] at h
    rw [hes]
    rcases List.mem_append.1 h with h | h
    · exact .inr (List.mem_append_left _ h)
    · rcases List.mem_cons.1 h with h | h
      · exact .inl h
      · exact .inr (List.mem_append_right _ (List.mem_cons_of_mem _ h))
  · rw [hset] at h
    rcases List.mem_append.1 h with h | h
    · exact .inr h
    · exact .inl (List.mem_singleton.1 h)

/-- What is there after dropping an entry was there before. -/
theorem of_mem_erase {e : String × α} (h : e ∈ (d.erase name).entries) :
    e ∈ d.entries :=
  (List.mem_filter.1 h).1

-- ================================================ entries that are changed

/-- The dictionary with every entry changed; the names stay. -/
def map (f : α → β) (d : Dict α) : Dict β :=
  ⟨d.entries.map fun e => (e.1, f e.2), by
    simpa [namesOf, Function.comp_def] using d.nodup⟩

theorem get?_map (f : α → β) (d : Dict α) (name : String) :
    (d.map f).get? name = (d.get? name).map f := by
  have hlist : ∀ es : List (String × α),
      (es.map fun e => (e.1, f e.2)).lookup name =
        (es.lookup name).map f := by
    intro es
    induction es with
    | nil => rfl
    | cons e rest ih =>
      obtain ⟨k, a⟩ := e
      cases h : name == k <;> simp [List.lookup_cons, h, ih]
  exact hlist d.entries

theorem map_set (f : α → β) (d : Dict α) (name : String) (a : α) :
    (d.set name a).map f = (d.map f).set name (f a) := by
  have hlist : ∀ es : List (String × α),
      (upsert name a es).map (fun e => (e.1, f e.2)) =
        upsert name (f a) (es.map fun e => (e.1, f e.2)) := by
    intro es
    induction es with
    | nil => rfl
    | cons e rest ih => by_cases h : e.1 = name <;> simp [upsert, h, ih]
  exact Dict.ext (hlist d.entries)

-- ======================================================== parts of lists

/-- An entry of a part is set in the part. -/
theorem filter_upsert_of_pos {P : String → Bool} (h : P name = true) (a : α)
    (es : List (String × α)) :
    (upsert name a es).filter (fun e => P e.1) =
      upsert name a (es.filter fun e => P e.1) := by
  induction es with
  | nil => simp [upsert, h]
  | cons e rest ih =>
    obtain ⟨k, b⟩ := e
    by_cases hk : k = name
    · subst hk
      simp [upsert, h]
    · cases hP : P k <;> simp [upsert, hk, hP, ih]

/-- An entry of another part is set there. -/
theorem filter_upsert_of_neg {P : String → Bool} (h : P name = false)
    (a : α) (es : List (String × α)) :
    (upsert name a es).filter (fun e => P e.1) =
      es.filter fun e => P e.1 := by
  induction es with
  | nil => simp [upsert, h]
  | cons e rest ih =>
    obtain ⟨k, b⟩ := e
    by_cases hk : k = name
    · subst hk
      simp [upsert, h]
    · cases hP : P k <;> simp [upsert, hk, hP, ih]

theorem filter_without (P : String → Bool) (name : String)
    (es : List (String × α)) :
    (without name es).filter (fun e => P e.1) =
      without name (es.filter fun e => P e.1) := by
  unfold without
  rw [List.filter_filter, List.filter_filter]
  congr 1
  funext e
  exact Bool.and_comm ..

/-- Behind entries of other names an entry is set in the rest. -/
theorem upsert_append {front : List (String × α)}
    (h : name ∉ namesOf front) (a : α) (back : List (String × α)) :
    upsert name a (front ++ back) = front ++ upsert name a back := by
  induction front with
  | nil => rfl
  | cons e rest ih =>
    obtain ⟨k, b⟩ := e
    have hk : k ≠ name := fun heq => h (by simp [namesOf, heq])
    have hrest : name ∉ namesOf rest := fun hmem =>
      h (List.mem_cons_of_mem _ hmem)
    simp [upsert, hk, ih hrest]

theorem without_append {front : List (String × α)}
    (h : name ∉ namesOf front) (back : List (String × α)) :
    without name (front ++ back) = front ++ without name back := by
  have hfront := without_eq_self h
  unfold without at hfront ⊢
  rw [List.filter_append, hfront]

-- ========================================================= simulations

variable {R : String × α → String × β → Prop}

/-- Setting related entries keeps lists related, if related entries agree
on whether they are the ones that are set. -/
theorem forall₂_upsert {es : List (String × α)} {fs : List (String × β)}
    (h : List.Forall₂ R es fs) {k name : String} {a : α} {b : β}
    (hname : ∀ e, ∀ f ∈ fs, R e f → (e.1 = k ↔ f.1 = name))
    (hnew : R (k, a) (name, b)) :
    List.Forall₂ R (upsert k a es) (upsert name b fs) := by
  induction h with
  | nil => exact .cons hnew .nil
  | @cons e f es fs hef hrest ih =>
    have hrest' := ih fun e f' hmem => hname e f' (List.mem_cons_of_mem _ hmem)
    have hiff := hname e f (List.mem_cons_self ..) hef
    by_cases hk : e.1 = k
    · have hf := hiff.1 hk
      obtain ⟨k', a'⟩ := e
      obtain ⟨name', b'⟩ := f
      subst hk hf
      simp only [upsert, if_true]
      exact .cons hnew hrest
    · have hf : ¬f.1 = name := fun heq => hk (hiff.2 heq)
      simp only [upsert, hk, hf, if_false]
      exact .cons hef hrest'

/-- Dropping related entries keeps lists related. -/
theorem forall₂_without {es : List (String × α)} {fs : List (String × β)}
    (h : List.Forall₂ R es fs) {k name : String}
    (hname : ∀ e, ∀ f ∈ fs, R e f → (e.1 = k ↔ f.1 = name)) :
    List.Forall₂ R (without k es) (without name fs) := by
  induction h with
  | nil => exact .nil
  | @cons e f es fs hef hrest ih =>
    have hrest' := ih fun e f' hmem => hname e f' (List.mem_cons_of_mem _ hmem)
    have hiff := hname e f (List.mem_cons_self ..) hef
    unfold without at hrest' ⊢
    by_cases hk : e.1 = k
    · have hf := hiff.1 hk
      simp only [List.filter_cons, hk, hf, ne_eq, not_true, decide_false,
        Bool.false_eq_true, if_false]
      exact hrest'
    · have hf : ¬f.1 = name := fun heq => hk (hiff.2 heq)
      simp only [List.filter_cons, hk, hf, ne_eq, not_false_eq_true,
        decide_true, if_true]
      exact .cons hef hrest'

end Dict

/-- Every item of the one list is related to some item of the other. -/
theorem exists_of_forall₂ {α β : Type} {R : α → β → Prop} {as : List α}
    {bs : List β} (h : List.Forall₂ R as bs) {a : α} (ha : a ∈ as) :
    ∃ b ∈ bs, R a b := by
  induction h with
  | nil => cases ha
  | @cons a' b as bs hab _ ih =>
    rcases List.mem_cons.1 ha with rfl | ha
    · exact ⟨b, List.mem_cons_self .., hab⟩
    · obtain ⟨b', hb', hab'⟩ := ih ha
      exact ⟨b', List.mem_cons_of_mem _ hb', hab'⟩

end ContentProperties
