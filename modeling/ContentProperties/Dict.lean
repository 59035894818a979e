/-
Ordered dictionaries: entries under names, in the order in which their
names were first set. Setting a name again replaces its entry where it
stands, and erasing one leaves the others in their order. The cache of a
map and the properties of a node in memory are kept this way.

The names are distinct, which is part of the type: no operation has to
ask for it, and none can break it.
-/

namespace ContentProperties

/-- The names of entries, in order. -/
def namesOf {α : Type} (es : List (String × α)) : List String := es.map (·.1)

/-- Entries under distinct names, in order. -/
@[ext] structure Dict (α : Type) where
  entries : List (String × α)
  nodup : (namesOf entries).Nodup

namespace Dict

variable {α : Type}

-- ================================================= entries in a list

/-- Replaces the entry under a name, or appends one, in a list. -/
def upsert (name : String) (a : α) : List (String × α) → List (String × α)
  | [] => [(name, a)]
  | (k, v) :: rest =>
      if k = name then (k, a) :: rest else (k, v) :: upsert name a rest

/-- Drops the entries under a name from a list. -/
def without (name : String) (es : List (String × α)) : List (String × α) :=
  es.filter fun e => e.1 ≠ name

/-- No entry is found exactly under the names that are not there. -/
theorem lookup_eq_none_iff {name : String} {es : List (String × α)} :
    es.lookup name = none ↔ name ∉ namesOf es := by
  rw [List.lookup_eq_none_iff, namesOf, List.mem_map]
  constructor
  · rintro h ⟨e, he, rfl⟩
    simpa using h e he
  · intro h e he
    simpa using fun heq : name = e.1 => h ⟨e, he, heq.symm⟩

theorem mem_of_lookup_eq_some {name : String} {a : α}
    {es : List (String × α)} (h : es.lookup name = some a) :
    (name, a) ∈ es := by
  obtain ⟨front, back, rfl, -⟩ := List.lookup_eq_some_iff.1 h
  exact List.mem_append_right _ List.mem_cons_self

/-- Under distinct names an entry is found iff it is there. -/
theorem lookup_eq_some_iff_mem {name : String} {a : α}
    {es : List (String × α)} (hes : (namesOf es).Nodup) :
    es.lookup name = some a ↔ (name, a) ∈ es := by
  refine ⟨mem_of_lookup_eq_some, fun h => ?_⟩
  obtain ⟨front, back, rfl⟩ := List.append_of_mem h
  refine List.lookup_eq_some_iff.2 ⟨front, back, rfl, fun e he => ?_⟩
  -- the name in the middle is none of those in front
  rw [namesOf, List.map_append, List.map_cons] at hes
  obtain ⟨-, -, hcross⟩ := List.nodup_append.1 hes
  have hne := hcross e.1 (List.mem_map_of_mem he) name List.mem_cons_self
  simpa using hne.symm

/-- The names after replacing or appending. -/
theorem namesOf_upsert (name : String) (a : α) (es : List (String × α)) :
    namesOf (upsert name a es) =
      if name ∈ namesOf es then namesOf es else namesOf es ++ [name] := by
  induction es with
  | nil => simp [namesOf, upsert]
  | cons e rest ih =>
    obtain ⟨k, v⟩ := e
    by_cases h : k = name
    · simp [namesOf, upsert, h]
    · simp only [upsert, h, if_false]
      simp only [namesOf, List.map_cons, List.mem_cons, Ne.symm h,
        false_or] at ih ⊢
      rw [ih]
      by_cases hmem : name ∈ rest.map (·.1) <;> simp [hmem]

/-- Setting an entry replaces the one under its name where it stands, or
appends one. -/
theorem upsert_cases (name : String) (a : α) (es : List (String × α)) :
    (∃ front b back, es = front ++ (name, b) :: back ∧
      name ∉ namesOf front ∧ upsert name a es = front ++ (name, a) :: back) ∨
    (name ∉ namesOf es ∧ upsert name a es = es ++ [(name, a)]) := by
  induction es with
  | nil => exact .inr ⟨by simp [namesOf], rfl⟩
  | cons e rest ih =>
    obtain ⟨k, v⟩ := e
    by_cases h : k = name
    · subst h
      exact .inl ⟨[], v, rest, rfl, by simp [namesOf], by simp [upsert]⟩
    · rcases ih with ⟨front, b, back, hes, hfront, hup⟩ | ⟨hrest, hup⟩
      · refine .inl ⟨(k, v) :: front, b, back, by rw [hes]; rfl, ?_, ?_⟩
        · simpa [namesOf, Ne.symm h] using hfront
        · simp [upsert, h, hup]
      · refine .inr ⟨?_, ?_⟩
        · simpa [namesOf, Ne.symm h] using hrest
        · simp [upsert, h, hup]

/-- Dropping the entries under a name changes nothing if there are
none. -/
theorem without_eq_self {name : String} {es : List (String × α)}
    (h : name ∉ namesOf es) : without name es = es := by
  refine List.filter_eq_self.2 fun e he => ?_
  have hne : e.1 ≠ name := fun heq => h (heq ▸ List.mem_map_of_mem he)
  simpa using hne

/-- Of distinct names one entry at most is dropped, and the others keep
their order. -/
theorem without_append_cons {name : String} {a : α}
    {front back : List (String × α)}
    (h : (namesOf (front ++ (name, a) :: back)).Nodup) :
    without name (front ++ (name, a) :: back) = front ++ back := by
  simp only [namesOf, List.map_append, List.map_cons] at h
  obtain ⟨-, hback, hcross⟩ := List.nodup_append.1 h
  have hfront : name ∉ namesOf front := fun hmem =>
    hcross name hmem name (List.mem_cons_self ..) rfl
  have h₁ : without name front = front := without_eq_self hfront
  have h₂ : without name back = back :=
    without_eq_self (List.nodup_cons.1 hback).1
  unfold without at h₁ h₂ ⊢
  rw [List.filter_append, h₁, List.filter_cons, h₂]
  simp

theorem nodup_upsert {es : List (String × α)} (hes : (namesOf es).Nodup)
    (name : String) (a : α) : (namesOf (upsert name a es)).Nodup := by
  rw [namesOf_upsert]
  split
  · exact hes
  · next h =>
    refine List.nodup_append.2 ⟨hes, List.pairwise_singleton .., ?_⟩
    intro x hx y hy heq
    rw [List.mem_singleton.1 hy] at heq
    exact h (heq ▸ hx)

theorem nodup_without {es : List (String × α)} (hes : (namesOf es).Nodup)
    (name : String) : (namesOf (without name es)).Nodup :=
  List.Nodup.sublist (List.filter_sublist.map _) hes

@[simp] theorem lookup_upsert_self (name : String) (a : α)
    (es : List (String × α)) : (upsert name a es).lookup name = some a := by
  induction es with
  | nil => simp [upsert]
  | cons e rest ih =>
    obtain ⟨k, v⟩ := e
    by_cases h : k = name
    · simp [upsert, h]
    · simp [upsert, List.lookup_cons, h, beq_false_of_ne (Ne.symm h), ih]

theorem lookup_upsert_of_ne {name other : String} (h : other ≠ name) (a : α)
    (es : List (String × α)) :
    (upsert name a es).lookup other = es.lookup other := by
  induction es with
  | nil => simp [upsert, List.lookup_cons, beq_false_of_ne h]
  | cons e rest ih =>
    obtain ⟨k, v⟩ := e
    by_cases hk : k = name
    · subst hk
      simp [upsert, List.lookup_cons, beq_false_of_ne h]
    · simp [upsert, List.lookup_cons, hk, ih]

-- ================================================= dictionaries

/-- No entries. -/
def empty : Dict α := ⟨[], List.nodup_nil⟩

/-- The names, in order. -/
def keys (d : Dict α) : List String := namesOf d.entries

/-- The entries without their names, in order. -/
def values (d : Dict α) : List α := d.entries.map (·.2)

/-- The number of entries. -/
def size (d : Dict α) : Nat := d.entries.length

/-- The entry under a name. -/
def get? (d : Dict α) (name : String) : Option α := d.entries.lookup name

/-- Whether there is an entry under the name. -/
def contains (d : Dict α) (name : String) : Bool := (d.get? name).isSome

/-- Sets the entry under a name: in its place if the name is there, else
at the end. -/
def set (d : Dict α) (name : String) (a : α) : Dict α :=
  ⟨upsert name a d.entries, nodup_upsert d.nodup name a⟩

/-- Drops the entry under a name. -/
def erase (d : Dict α) (name : String) : Dict α :=
  ⟨without name d.entries, nodup_without d.nodup name⟩

/-- Setting an entry, as one of the two things it can do. -/
theorem set_cases (d : Dict α) (name : String) (a : α) :
    (∃ front b back, d.entries = front ++ (name, b) :: back ∧
      d.get? name = some b ∧
      (d.set name a).entries = front ++ (name, a) :: back) ∨
    (name ∉ d.keys ∧ d.get? name = none ∧
      (d.set name a).entries = d.entries ++ [(name, a)]) := by
  rcases upsert_cases name a d.entries with
    ⟨front, b, back, hes, -, hup⟩ | ⟨hnot, hup⟩
  · have hmem : (name, b) ∈ d.entries := by rw [hes]; simp
    exact .inl ⟨front, b, back, hes,
      (lookup_eq_some_iff_mem d.nodup).2 hmem, hup⟩
  · exact .inr ⟨hnot, lookup_eq_none_iff.2 hnot, hup⟩

/-- Dropping an entry, as one of the two things it can do. -/
theorem erase_cases (d : Dict α) (name : String) :
    (∃ front b back, d.entries = front ++ (name, b) :: back ∧
      d.get? name = some b ∧ (d.erase name).entries = front ++ back) ∨
    (name ∉ d.keys ∧ d.get? name = none ∧ d.erase name = d) := by
  cases hget : d.get? name with
  | none =>
      have hnot : name ∉ d.keys := lookup_eq_none_iff.1 hget
      exact .inr ⟨hnot, rfl, Dict.ext (without_eq_self hnot)⟩
  | some b =>
      obtain ⟨front, back, hes⟩ :=
        List.append_of_mem (mem_of_lookup_eq_some hget)
      refine .inl ⟨front, b, back, hes, rfl, ?_⟩
      have hnodup := d.nodup
      rw [hes] at hnodup
      show without name d.entries = _
      rw [hes, without_append_cons hnodup]

@[simp] theorem get?_set_self (d : Dict α) (name : String) (a : α) :
    (d.set name a).get? name = some a := lookup_upsert_self ..

theorem get?_set_of_ne (d : Dict α) {name other : String} (h : other ≠ name)
    (a : α) : (d.set name a).get? other = d.get? other :=
  lookup_upsert_of_ne h ..

end Dict

end ContentProperties
