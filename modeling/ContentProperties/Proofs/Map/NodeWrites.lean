/-
What a map over a node in memory does when it writes. Preparing a write
finds stored forms for the value, or fails; committing it has the node
set one property, or fails; and no failure changes the cache or what the
repository holds (`put_outcomes`). Removing a key cannot fail
(`remove_outcome`).

The keys are plain and their storage names are not protected, which the
map does not check: it would write types instead.
-/
import ContentProperties.Proofs.Conversion.Attempts
import ContentProperties.Proofs.Map.Reading

namespace ContentProperties.Memory

open PropertyMap

variable {c : Site} {v : Surroundings} {s t : MapState Repository}
variable (sid : Nat)

-- ======================================================== stored forms

/-- The value has a stored form. -/
def Storable (v : Value) : Prop := ∃ s, StoredAs v s

/-- The value can be written: it has a stored form, or it is an array of
values that have one. -/
def Writable : Value → Prop
  | .array items => ∀ item ∈ items, Storable item
  | v => Storable v

/-- Converting a value to its stored form finds it. -/
theorem run_convertScalar_stored (provider : Provider)
    (e : Entry Repository) (place : Option Nat) {v : Value}
    (h : Storable v) (w : World Repository) :
    ∃ s w', (Entry.convertScalar (session sid) provider e place v
        .stored).run w = (.ok (some (Converted.stored s)), w') ∧
      StoredAs v s ∧ w'.repo = w.repo := by
  rcases store?_cases sid v w with ⟨s, w', hrun, hs, hw⟩ | ⟨-, hnone⟩
  · refine ⟨s, w', ?_, hs, hw⟩
    have hplain : (Entry.convertPlain (session sid) e v .stored).run w =
        (.ok (some (Converted.stored s)), w') := by
      unfold Entry.convertPlain
      dsimp only
      rw [Attempt.run_bind_of_some (Attempt.run_ofAct_of_ok hrun)]
      rfl
    -- no value is an instance, and binaries take no other way here
    have hscalar : Entry.convertScalar (session sid) provider e place v
        .stored = Entry.convertPlain (session sid) e v .stored := by
      unfold Entry.convertScalar
      cases v <;> rfl
    rw [hscalar, hplain]
  · obtain ⟨s, hs⟩ := h
    exact absurd hs (hnone s)

/-- Checking that a value can be stored finds out whether it has a stored
form. -/
theorem checkStorable_cases (v : Value) (w : World Repository) :
    (∃ w', Entry.checkStorable (session sid) v w = (.ok (), w') ∧
      Storable v ∧ w'.repo = w.repo) ∨
    (∃ e w', Entry.checkStorable (session sid) v w = (.error e, w') ∧
      w'.repo = w.repo) := by
  cases v with
  | binary b => exact .inl ⟨w, rfl, ⟨_, rfl⟩, rfl⟩
  | _ =>
      rcases store?_cases sid _ w with ⟨s, w', hrun, hs, hw⟩ | ⟨hrun, -⟩
      · refine .inl ⟨w', ?_, ⟨s, hs⟩, hw⟩
        simp only [Entry.checkStorable, hrun]
      · simp only [Entry.checkStorable, hrun]
        exact .inr ⟨_, _, rfl, rfl⟩

theorem checkAllStorable_cases (vs : List Value) (w : World Repository) :
    (∃ w', Entry.checkAllStorable (session sid) vs w = (.ok (), w') ∧
      (∀ v ∈ vs, Storable v) ∧ w'.repo = w.repo) ∨
    (∃ e w', Entry.checkAllStorable (session sid) vs w = (.error e, w') ∧
      w'.repo = w.repo) := by
  induction vs generalizing w with
  | nil => exact .inl ⟨w, rfl, by simp, rfl⟩
  | cons v rest ih =>
    unfold Entry.checkAllStorable
    rcases checkStorable_cases sid v w with
      ⟨u, hrun, hv, hu⟩ | ⟨e, u, hrun, hu⟩
    · rw [run_bind_of_ok hrun]
      rcases ih u with ⟨w', hrest, hall, hw⟩ | ⟨e, w', hrest, hw⟩
      · refine .inl ⟨w', hrest, ?_, hw.trans hu⟩
        intro x hx
        rcases List.mem_cons.1 hx with rfl | hx
        · exact hv
        · exact hall x hx
      · exact .inr ⟨e, w', hrest, hw.trans hu⟩
    · rw [run_bind_of_error hrun]
      exact .inr ⟨e, u, rfl, hu⟩

/-- Making the entry of a value finds out whether it can be written. -/
theorem ofValue_cases (v : Value) (w : World Repository) :
    (∃ w', Entry.ofValue (session sid) v w =
        (.ok (pendingSlot v).entry, w') ∧
      Writable v ∧ w'.repo = w.repo) ∨
    (∃ e w', Entry.ofValue (session sid) v w = (.error e, w') ∧
      w'.repo = w.repo) := by
  have hsingle : v.isArray = false → Writable v = Storable v ∧
      Entry.ofValue (session sid) v =
        (Entry.checkStorable (session sid) v >>= fun _ =>
          pure (pendingSlot v).entry) := by
    intro h
    cases v with
    | array items => cases h
    | _ => exact ⟨rfl, rfl⟩
  cases harray : v.isArray with
  | false =>
      obtain ⟨hwritable, hrun⟩ := hsingle harray
      rw [hrun, hwritable]
      rcases checkStorable_cases sid v w with
        ⟨u, hcheck, hv, hu⟩ | ⟨e, u, hcheck, hu⟩
      · exact .inl ⟨u, by rw [run_bind_of_ok hcheck]; rfl, hv, hu⟩
      · exact .inr ⟨e, u, by rw [run_bind_of_error hcheck], hu⟩
  | true =>
      cases v with
      | array items =>
          unfold Entry.ofValue
          dsimp only
          rcases checkAllStorable_cases sid items w with
            ⟨u, hcheck, hall, hu⟩ | ⟨e, u, hcheck, hu⟩
          · exact .inl ⟨u, by rw [run_bind_of_ok hcheck]; rfl, hall, hu⟩
          · exact .inr ⟨e, u, by rw [run_bind_of_error hcheck], hu⟩
      | _ => cases harray

-- =========================================================== changes

/-- The change that writing a value under an unprotected name asks for. -/
inductive Asks (name : String) : Value → Change → Prop where
  | one {x s} : x.isArray = false → StoredAs x s →
      Asks name x (.property name s)
  | many {items ss} : List.Forall₂ StoredAs items ss →
      Asks name (.array items) (.multiProperty name ss)

theorem storable_of_writable {v : Value} (hsingle : v.isArray = false)
    (hv : Writable v) : Storable v := by
  cases v with
  | array items => cases hsingle
  | _ => exact hv

/-- The stored forms are picked out of the results of a conversion. -/
theorem run_ofEach_stored {vs : List Value}
    {cs : List (Converted Repository)}
    (h : List.Forall₂ (fun v c => ∃ s, c = .stored s ∧ StoredAs v s) vs cs)
    (w : World Repository) :
    ∃ ss, Convertible.ofEach (α := StoredValue) cs w = (ss, w) ∧
      List.Forall₂ StoredAs vs ss := by
  induction h with
  | nil => exact ⟨[], rfl, .nil⟩
  | cons hc _ ih =>
    obtain ⟨s, rfl, hs⟩ := hc
    obtain ⟨ss, hrun, hall⟩ := ih
    refine ⟨s :: ss, ?_, .cons hs hall⟩
    show ((Convertible.ofEach _ w).1.cons s, (Convertible.ofEach _ w).2) = _
    rw [hrun]

/-- The stored form of one value is found. -/
theorem run_entryAs?_one {x : Value} (hsingle : x.isArray = false)
    (hx : Storable x) (w : World Repository) :
    ∃ s w', c.map.entryAs? StoredValue (pendingSlot x).entry w =
        (.ok (some s), w') ∧ StoredAs x s ∧ w'.repo = w.repo := by
  have hvalue : (pendingSlot x).entry.value w = (.ok x, w) := rfl
  have hentry : (pendingSlot x).entry.isArray = false := hsingle
  obtain ⟨s, w', hrun, hs, hw⟩ := run_convertScalar_stored c.sid c.provider
    (pendingSlot x).entry none hx w
  have hconvert : (pendingSlot x).entry.convert (session c.sid) c.provider
      .stored w = (.ok (some (.stored s)), w') := by
    rw [Entry.run_convert_single hentry hvalue rfl]
    exact hrun
  refine ⟨s, w', ?_, hs, hw⟩
  unfold entryAs?
  exact run_bind_of_ok hconvert _

/-- The stored forms of all items of an array are found. -/
theorem run_entryAs?_many {items : List Value}
    (hitems : ∀ x ∈ items, Storable x) (w : World Repository) :
    ∃ ss w', c.map.entryAs? (List StoredValue)
        (pendingSlot (.array items)).entry w = (.ok (some ss), w') ∧
      List.Forall₂ StoredAs items ss ∧ w'.repo = w.repo := by
  have hvalue : (pendingSlot (.array items)).entry.value w =
      (.ok (.array items), w) := rfl
  have hitem : ∀ x ∈ items, ∀ place u, u.repo = w.repo →
      ∃ r u', (Entry.convertScalar (session c.sid) c.provider
          (pendingSlot (.array items)).entry place x .stored).run u =
            (.ok (some r), u') ∧
        (∃ s, r = .stored s ∧ StoredAs x s) ∧ u'.repo = w.repo := by
    intro x hmem place u hu
    obtain ⟨s, u', hrun, hs, hu'⟩ := run_convertScalar_stored c.sid
      c.provider (pendingSlot (.array items)).entry place (hitems x hmem) u
    exact ⟨_, u', hrun, ⟨s, rfl, hs⟩, hu'.trans hu⟩
  obtain ⟨rs, w', hrun, hrs, hw⟩ := Entry.run_convertItems
    (I := fun u => u.repo = w.repo) hitem 0 rfl
  obtain ⟨ss, heach, hss⟩ := run_ofEach_stored hrs w'
  have hconvert := Entry.run_convert_items
    (e := (pendingSlot (.array items)).entry) rfl hvalue hrun
  refine ⟨ss, w', ?_, hss, hw⟩
  unfold entryAs?
  refine (run_bind_of_ok hconvert _).trans ?_
  show (match Convertible.ofEach (α := StoredValue) rs w' with
    | (as, u) => (.ok (some as), u) :
      Except Abort (Option (List StoredValue)) × World Repository) = _
  rw [heach]

/-- The entry of a value that can be written asks for the change. -/
theorem run_changeFor {name : String} (hp : name ≠ primaryTypeName)
    (hm : name ≠ mixinTypesName) {x : Value} (hx : Writable x)
    (w : World Repository) :
    ∃ change w', c.map.changeFor name (pendingSlot x).entry w =
        (.ok change, w') ∧ Asks name x change ∧ w'.repo = w.repo := by
  unfold changeFor
  rw [if_neg hm, if_neg hp]
  cases harray : x.isArray with
  | false =>
      have hentry : (pendingSlot x).entry.isArray = false := harray
      obtain ⟨s, w', hrun, hs, hw⟩ := run_entryAs?_one (c := c) harray
        (storable_of_writable harray hx) w
      refine ⟨.property name s, w', ?_, .one harray hs, hw⟩
      rw [hentry, if_neg Bool.false_ne_true, run_bind_of_ok hrun]
      rfl
  | true =>
      cases x with
      | array items =>
          have hentry : (pendingSlot (.array items)).entry.isArray = true :=
            rfl
          obtain ⟨ss, w', hrun, hss, hw⟩ :=
            run_entryAs?_many (c := c) hx w
          refine ⟨.multiProperty name ss, w', ?_, .many hss, hw⟩
          rw [hentry, if_pos rfl, run_bind_of_ok hrun]
          rfl
      | _ => cases harray

/-- Rejecting a value fails and is not observed. -/
theorem run_rejected {α : Type} (key : String) (x : Value)
    (reason : String) (s : MapState Repository) :
    ∃ e t, (c.map.rejected key x reason : MapM Repository α) s =
        (.error e, t) ∧ c.observed t = c.observed s :=
  ⟨_, _, rfl, observed_world (keeps_path c.id c.sid s.world)⟩

/-- A value that is checked and converted without touching the world is
prepared, and that is not observed. -/
theorem run_prepare (hs : c.surroundings s = v) {key : String} {x : Value}
    {change : Change}
    (hmade : ∀ w, Entry.ofValue (session c.sid) x w =
      (.ok (pendingSlot x).entry, w))
    (hchange : ∀ w, c.map.changeFor (storageName v.known key)
      (pendingSlot x).entry w = (.ok change, w)) :
    ∃ t, c.map.prepare key x s = (.ok ((pendingSlot x).entry, change), t) ∧
      c.observed t = c.observed s := by
  have hmade' : MapM.result (MapM.ofEntry
      (Entry.ofValue c.map.node.session x)) s =
        (.ok (.ok (pendingSlot x).entry), s) := by
    show MapM.result (MapM.ofEntry
      (Entry.ofValue (session c.sid) x)) s = _
    rw [MapM.run_result, MapM.run_ofEntry, hmade]
  obtain ⟨t, hname, ht⟩ := run_escapeKey (c := c) key s
  rw [known_of_surroundings hs] at hname
  refine ⟨t, ?_, ht⟩
  unfold prepare
  rw [run_bind_of_ok hmade']
  dsimp only
  rw [run_bind_of_ok hname, run_bind, MapM.run_ofConversion, hchange]
  rfl

/-- Preparing a write fails, or yields the change that the value asks
for; it is not observed. -/
theorem prepare_cases (hs : c.surroundings s = v) {key : String}
    (hp : storageName v.known key ≠ primaryTypeName)
    (hm : storageName v.known key ≠ mixinTypesName) (x : Value) :
    (∃ e t, c.map.prepare key x s = (.error e, t) ∧
      c.observed t = c.observed s) ∨
    (∃ change t, c.map.prepare key x s =
        (.ok ((pendingSlot x).entry, change), t) ∧
      Asks (storageName v.known key) x change ∧
      c.observed t = c.observed s) := by
  have hknown := known_of_surroundings hs
  unfold prepare
  rcases ofValue_cases c.sid x s.world with
    ⟨w, hmade, hx, hw⟩ | ⟨e, w, hmade, hw⟩
  · have hcontent : contentOf w = contentOf s.world :=
      congrArg Repository.content hw
    have hmade' : MapM.result (MapM.ofEntry
        (Entry.ofValue c.map.node.session x)) s =
          (.ok (.ok (pendingSlot x).entry), { s with world := w }) := by
      show MapM.result (MapM.ofEntry
        (Entry.ofValue (session c.sid) x)) s = _
      rw [MapM.run_result, MapM.run_ofEntry, hmade]
    obtain ⟨t, hname, ht⟩ :=
      run_escapeKey (c := c) key { s with world := w }
    have hobserved : c.observed t = c.observed s :=
      ht.trans (observed_world hcontent)
    have hknown' : c.known { s with world := w } = v.known := by
      rw [← hknown]
      exact congrArg (fun o => o.2.known) (observed_world (c := c) hcontent)
    rw [hknown'] at hname
    obtain ⟨change, u, hchange, hasks, hu⟩ :=
      run_changeFor (c := c) hp hm hx t.world
    refine .inr ⟨change, { t with world := u }, ?_, hasks, ?_⟩
    · rw [run_bind_of_ok hmade']
      dsimp only
      rw [run_bind_of_ok hname, run_bind, MapM.run_ofConversion, hchange]
      rfl
    · rw [← hobserved]
      exact observed_world (congrArg Repository.content hu)
  · have hcontent : contentOf w = contentOf s.world :=
      congrArg Repository.content hw
    have hmade' : MapM.result (MapM.ofEntry
        (Entry.ofValue c.map.node.session x)) s =
          (.ok (.error e), { s with world := w }) := by
      show MapM.result (MapM.ofEntry
        (Entry.ofValue (session c.sid) x)) s = _
      rw [MapM.run_result, MapM.run_ofEntry, hmade]
    rw [run_bind_of_ok hmade']
    obtain ⟨e', t, hrun, ht⟩ := run_rejected (c := c)
      (α := Entry Repository × Change) key x e.message { s with world := w }
    exact .inl ⟨e', t, hrun, ht.trans (observed_world hcontent)⟩

-- ======================================================== one property

/-- A stored value that may be kept for a value. -/
def HeldAs (x : Value) (s : StoredValue) : Prop :=
  ∃ s₀, StoredAs x s₀ ∧ Buffers s₀ s

/-- The property keeps the value: each item of an array, or the only
one. -/
inductive Holds : StoredProperty → Value → Prop where
  | one {name type x s} : x.isArray = false → HeldAs x s →
      Holds (.single name type s) x
  | many {name type items ss} : List.Forall₂ HeldAs items ss →
      Holds (.multi name type ss) (.array items)

theorem Holds.wellFormed {p : StoredProperty} {x : Value}
    (h : Holds p x) : p.WellFormed := by
  cases h with
  | one _ _ => exact fun _ => ⟨_, rfl⟩
  | many _ => exact fun hsingle => nomatch hsingle

/-- Stored forms that are buffered are kept for their values. -/
theorem heldAs_of_buffers {xs : List Value} {ss ts : List StoredValue}
    (hs : List.Forall₂ StoredAs xs ss) (ht : List.Forall₂ Buffers ss ts) :
    List.Forall₂ HeldAs xs ts := by
  induction hs generalizing ts with
  | nil =>
    cases ht
    exact .nil
  | cons hx _ ih =>
    cases ht with
    | cons hbuf hrest => exact .cons ⟨_, hx, hbuf⟩ (ih hrest)

/-- Content with the same sessions has the same known prefixes. -/
theorem surroundings_of_content {w : World Repository} {r : Repository}
    (hw : contentOf w = r)
    (hr : r.sessions = (contentOf s.world).sessions) :
    c.surroundings { s with world := w } = ⟨r, c.known s⟩ := by
  subst hw
  have hprefixes : (w.repo.sessions c.sid).prefixes =
      (s.world.repo.sessions c.sid).prefixes :=
    (congrArg (fun f => (f c.sid).prefixes) hr :)
  simp only [Site.surroundings, Site.known, hprefixes]

/-- A change that a value asks for fails without a trace, or sets one
property that keeps the value. -/
theorem apply_cases {name : String} (hp : name ≠ primaryTypeName)
    (hm : name ≠ mixinTypesName) {x : Value} {change : Change}
    (hasks : Asks name x change) (w : World Repository) :
    (∃ e, (change.apply c.map.node w).1 = .error e ∧
      contentOf (change.apply c.map.node w).2 = contentOf w) ∨
    (∃ p : StoredProperty, (change.apply c.map.node w).1 = .ok () ∧
      p.name = name ∧ Holds p x ∧
      contentOf (change.apply c.map.node w).2 =
        (contentOf w).withProperty c.id p) := by
  cases hasks with
  | one hsingle hs =>
      rcases setProperty_cases c.id hp hm _ w with
        ⟨e, herror, hcontent⟩ | ⟨t, hok, hbuf, hcontent⟩
      · exact .inl ⟨e, herror, hcontent⟩
      · exact .inr ⟨_, hok, rfl, .one hsingle ⟨_, hs, hbuf⟩, hcontent⟩
  | many hss =>
      rcases setMultiProperty_cases c.id hp hm _ w with
        ⟨e, herror, hcontent⟩ | ⟨ts, type, hok, hts, hcontent⟩
      · exact .inl ⟨e, herror, hcontent⟩
      · exact .inr ⟨_, hok, rfl, .many (heldAs_of_buffers hss hts), hcontent⟩

/-- Committing a change fails without being observed, or sets one
property that keeps the value. -/
theorem commit_cases (hs : c.surroundings s = v) {name : String}
    (hp : name ≠ primaryTypeName) (hm : name ≠ mixinTypesName)
    {x : Value} {change : Change} (hasks : Asks name x change)
    (key : String) :
    (∃ e t, c.map.commit key x change s = (.error e, t) ∧
      c.observed t = c.observed s) ∨
    (∃ (p : StoredProperty) (t : MapState Repository),
      c.map.commit key x change s = (.ok (), t) ∧
      p.name = name ∧ Holds p x ∧ t.cache = s.cache ∧
      c.surroundings t = ⟨v.repo.withProperty c.id p, v.known⟩) := by
  unfold commit
  rcases hrun : change.apply c.map.node s.world with ⟨r, w⟩
  have hattempt : MapM.attempt (change.apply c.map.node) s =
      (.ok r, { s with world := w }) := by
    rw [MapM.run_attempt, hrun]
  rw [run_bind_of_ok hattempt]
  rcases apply_cases (c := c) hp hm hasks s.world with
    ⟨e, herror, hcontent⟩ | ⟨p, hok, hname, hholds, hcontent⟩
  · rw [hrun] at herror hcontent
    cases herror
    obtain ⟨e', t, hrejected, ht⟩ := run_rejected (c := c) (α := Unit) key x
      e.message { s with world := w }
    exact .inl ⟨e', t, hrejected, ht.trans (observed_world hcontent)⟩
  · rw [hrun] at hok hcontent
    cases hok
    subst hs
    exact .inr ⟨p, _, rfl, hname, hholds, rfl,
      surroundings_of_content hcontent rfl⟩

-- ============================================================== writes

/-- What a put does to a map that has read everything: it fails and is
not observed, or one property of the node and one slot keep the value. -/
theorem put_outcomes (hw : c.writable = true) (hs : c.surroundings s = v)
    (hread : s.cache.fullyRead = true) {key : String} (hk : IsPlain key)
    (hp : storageName v.known (plainKey key) ≠ primaryTypeName)
    (hm : storageName v.known (plainKey key) ≠ mixinTypesName)
    (x : Value) :
    (∃ e t, c.map.put key x s = (.error e, t) ∧
      c.observed t = c.observed s) ∨
    (∃ old p t, c.map.put key x s = (.ok old, t) ∧
      p.name = storageName v.known (plainKey key) ∧ Holds p x ∧
      t.cache = ⟨s.cache.slots.set (plainKey key) (pendingSlot x), true⟩ ∧
      c.surroundings t = ⟨v.repo.withProperty c.id p, v.known⟩) := by
  have hprepare := prepare_cases hs hp hm x
  rcases put_cases (m := c.map) hw hread hk x with
    ⟨e, t, hprep, hput⟩ | ⟨entry, change, u, e, t, hprep, hcommit, hput⟩ |
    ⟨entry, change, u, t, hprep, hcommit, hput⟩
  · refine .inl ⟨e, t, hput, ?_⟩
    rcases hprepare with ⟨_, _, hrun, ht⟩ | ⟨_, _, hrun, -, -⟩
    · rw [hprep] at hrun
      cases hrun
      exact ht
    · rw [hprep] at hrun
      cases hrun
  all_goals
    rcases hprepare with ⟨_, _, hrun, -⟩ | ⟨_, _, hrun, hasks, hu⟩
    · rw [hprep] at hrun
      cases hrun
    rw [hprep] at hrun
    cases hrun
    have hcases := commit_cases ((congrArg Prod.snd hu).trans hs) hp hm hasks
      (plainKey key)
  · refine .inl ⟨e, t, hput, ?_⟩
    rcases hcases with ⟨_, _, hrun, ht⟩ | ⟨_, _, hrun, -⟩
    · rw [hcommit] at hrun
      cases hrun
      exact ht.trans hu
    · rw [hcommit] at hrun
      cases hrun
  · rcases hcases with ⟨_, _, hrun, -⟩ | ⟨p, _, hrun, hname, hp, -, ht⟩
    · rw [hcommit] at hrun
      cases hrun
    · rw [hcommit] at hrun
      cases hrun
      exact .inr ⟨_, p, _, hput, hname, hp, rfl, ht⟩

/-- Removing a property that is not there changes nothing. -/
theorem Repository.withoutProperty_of_none {r : Repository} {id : Nat}
    {name : String} (h : (r.nodes id).properties.get? name = none) :
    r.withoutProperty id name = r := by
  have herase : (r.nodes id).properties.erase name =
      (r.nodes id).properties := by
    rcases (r.nodes id).properties.erase_cases name with
      ⟨_, b, _, -, hget, -⟩ | ⟨-, -, hsame⟩
    · rw [h] at hget
      cases hget
    · exact hsame
  have hnodes : (fun i => if i = id then (r.nodes i).withoutProperty name
      else r.nodes i) = r.nodes := by
    funext i
    split
    · next heq =>
      subst heq
      rw [NodeState.withoutProperty, herase]
    · rfl
  unfold withoutProperty modifyNode
  rw [hnodes]

/-- Asking first whether a property is there makes no difference to its
removal. -/
theorem run_removeStored {name : String} (hslash : '/' ∉ name.toList)
    (hp : name ≠ primaryTypeName) (hm : name ≠ mixinTypesName)
    (w : World Repository) :
    ∃ u, c.map.removeStored name w = (.ok (), u) ∧
      contentOf u = (contentOf w).withoutProperty c.id name := by
  have hfound := run_property? c.id c.sid name w
  have hkept := keeps_property? c.id c.sid name w
  rw [Repository.resolve?_of_not_mem _ _ hslash,
    NodeState.property?_of_ne hp hm] at hfound
  rcases hr : (node c.id c.sid).property? name w with ⟨r, t⟩
  rw [hr] at hfound hkept
  cases hfound
  unfold removeStored
  rw [show c.map.node = Memory.node c.id c.sid from rfl, run_bind_of_ok hr]
  cases hget : (w.repo.nodes c.id).properties.get? name with
  | none =>
      have hcontent : ((contentOf w).nodes c.id).properties.get? name = none :=
        hget
      refine ⟨t, rfl, ?_⟩
      rw [Repository.withoutProperty_of_none hcontent]
      exact hkept
  | some p =>
      obtain ⟨hok, hcontent⟩ := run_removeProperty c.id c.sid hp hm t
      refine ⟨((node c.id c.sid).removeProperty name t).2,
        Prod.ext hok rfl, ?_⟩
      rw [hcontent]
      exact congrArg (fun r => r.withoutProperty c.id name) hkept

/-- Withdrawing a key removes its property, there or not. -/
theorem run_withdraw (hs : c.surroundings s = v) {key : String}
    (hpath : isPath key = false)
    (hp : storageName v.known key ≠ primaryTypeName)
    (hm : storageName v.known key ≠ mixinTypesName) :
    ∃ t, c.map.withdraw key s = (.ok (), t) ∧
      c.surroundings t =
        ⟨v.repo.withoutProperty c.id (storageName v.known key), v.known⟩ := by
  have hknown := known_of_surroundings hs
  obtain ⟨t, hname, ht⟩ := run_escapeKey (c := c) key s
  rw [hknown] at hname
  have htv : c.surroundings t = v := (congrArg Prod.snd ht).trans hs
  obtain ⟨u, hgone, hcontent⟩ := run_removeStored (c := c)
    (slash_not_mem_storageName v.known hpath) hp hm t.world
  refine ⟨{ t with world := u }, ?_, ?_⟩
  · unfold withdraw
    have hattempt : MapM.attempt
        (c.map.removeStored (storageName v.known key)) t =
          (.ok (.ok ()), { t with world := u }) := by
      rw [MapM.run_attempt, hgone]
    rw [run_bind_of_ok hname, run_bind_of_ok hattempt]
    rfl
  · subst htv
    exact surroundings_of_content hcontent rfl

/-- Removing a key of a map that has read everything drops its property
and its slot. -/
theorem remove_outcome (hw : c.writable = true) (hs : c.surroundings s = v)
    (hread : s.cache.fullyRead = true) {key : String} (hk : IsPlain key)
    (hp : storageName v.known (plainKey key) ≠ primaryTypeName)
    (hm : storageName v.known (plainKey key) ≠ mixinTypesName) :
    ∃ old t, c.map.remove key s = (.ok old, t) ∧
      t.cache = ⟨s.cache.slots.erase (plainKey key), true⟩ ∧
      c.surroundings t = ⟨v.repo.withoutProperty c.id
        (storageName v.known (plainKey key)), v.known⟩ := by
  obtain ⟨u, hgone, hu⟩ := run_withdraw hs hk.2 hp hm
  rcases remove_cases (m := c.map) hw hread key with
    ⟨e, t, hrun, -⟩ | ⟨t, hrun, hrem⟩
  · rw [hgone] at hrun
    cases hrun
  · rw [hgone] at hrun
    cases hrun
    exact ⟨_, _, hrem, rfl, hu⟩

end ContentProperties.Memory
