/-
What holds of every slot that a map has cached. A condition that every
slot satisfies that is made, by reading (`Makes`) or by a writer, holds of
whatever is in the cache at any time (`Reached.slotsSatisfy`), and of
whatever a read yields, paths included. The node may change and fail as it
likes in between, and calls may be refused or break off halfway.

# Method

A cache whose slots all satisfy the condition (`AllCached`) takes in what
reading makes, so what a read does is known. A query is a full read, if it
needs one, and then a look. A write comes with a slot of its own, which is
set once the node has been written to, and a removal takes one out. The
states that a map comes to (`Reached`) follow by induction.
-/
import ContentProperties.Map.Typed
import ContentProperties.Proofs.Map.CacheHistory
import ContentProperties.Proofs.Map.CacheInvariants
import ContentProperties.Proofs.Map.Dictionary

namespace ContentProperties

variable {σ α β : Type}

-- ============================================================== slots

/-- All slots satisfy the condition, each with its key. -/
def SlotsSatisfy (P : String → Slot σ → Prop) (d : Dict (Slot σ)) : Prop :=
  ∀ key slot, d.get? key = some slot → P key slot

namespace SlotsSatisfy

variable {P : String → Slot σ → Prop} {d : Dict (Slot σ)}

theorem empty : SlotsSatisfy P Dict.empty :=
  fun _ _ h => nomatch h

/-- The slot that is set is the only new one. -/
theorem set (hd : SlotsSatisfy P d) {key : String} {slot : Slot σ}
    (h : P key slot) : SlotsSatisfy P (d.set key slot) := by
  intro other found hfound
  rcases Dict.of_mem_set (Dict.mem_entries_iff.2 hfound) with heq | hold
  · cases heq
    exact h
  · exact hd other found (Dict.mem_entries_iff.1 hold)

theorem addNew (hd : SlotsSatisfy P d) {key : String} {slot : Slot σ}
    (h : P key slot) : SlotsSatisfy P (d.addNew key slot) := by
  intro other found hfound
  rcases Dict.of_get?_addNew hfound with ⟨rfl, rfl⟩ | hfound
  · exact h
  · exact hd other found hfound

/-- Nothing comes in when a slot is taken out. -/
theorem erase (hd : SlotsSatisfy P d) (key : String) :
    SlotsSatisfy P (d.erase key) := by
  intro other found hfound
  have hold := Dict.of_mem_erase (Dict.mem_entries_iff.2 hfound)
  exact hd other found (Dict.mem_entries_iff.1 hold)

end SlotsSatisfy

namespace PropertyMap

/-- All slots that are cached satisfy the condition. -/
def AllCached (P : String → Slot σ → Prop) (c : Cache σ) : Prop :=
  SlotsSatisfy P c.slots

variable {P : String → Slot σ → Prop} {Q : α → Prop}

/-- One slot more under a free key satisfies the condition beside the
others. -/
theorem takesIn_allCached : TakesIn (AllCached P) P where
  cached := fun _ key slot hc hslot => hc key slot hslot
  added := fun _ _ _ hc hslot => SlotsSatisfy.addNew hc hslot

/-- The slots may be changed in any way that respects the condition. -/
theorem sustains_modifySlots {f : Dict (Slot σ) → Dict (Slot σ)}
    (hf : ∀ d, SlotsSatisfy P d → SlotsSatisfy P (f d)) :
    Sustains (AllCached P) (fun _ => True) (MapM.modifySlots f) :=
  fun s hs => ⟨hf s.cache.slots hs, fun _ _ => trivial⟩

-- ============================================================ queries

section Queries

variable {m : PropertyMap σ} (hm : m.Makes P)

include hm

/-- Reading all properties, also if it fails. -/
theorem sustains_fullRead :
    Sustains (AllCached P) (fun _ => True) m.readFully :=
  sustains_readFully takesIn_allCached hm fun _ hc => hc

/-- Asking anything. -/
theorem sustains_ask (q : Query) :
    Sustains (AllCached P) (fun _ => True) (m.ask q) := by
  have hprepare : Sustains (AllCached P) (fun _ => True) (m.prepareFor q) := by
    unfold prepareFor
    split
    · exact sustains_fullRead hm
    · exact sustains_pure trivial
  have hfind : Sustains (AllCached P) (Satisfied P) (m.find q) := by
    unfold find
    split
    · exact sustains_read takesIn_allCached hm _
    · exact sustains_pure satisfied_none
  rw [ask_eq]
  exact sustains_bind hprepare fun _ _ => sustains_bind hfind
    fun slot? _ => (sustains_of_keeps (keeps_cache_conclude m q slot?)).mono
      fun _ _ => trivial

theorem sustains_isEmpty : Sustains (AllCached P) (fun _ => True) m.isEmpty :=
  sustains_bind (sustains_ask hm .size) fun _ _ => sustains_pure trivial

/-- A typed read is a conversion of what is found. -/
theorem sustains_getTyped? (α : Type) [Convertible σ α] (key : String) :
    Sustains (AllCached P) (fun _ => True) (m.getTyped? α key) := by
  refine sustains_bind (sustains_ask hm (.getAs key _)) fun c? _ => ?_
  cases c? with
  | none => exact sustains_pure trivial
  | some c => exact (sustains_of_keeps fun _ => rfl).mono fun _ _ => trivial

/-- A default is stored nowhere. -/
theorem sustains_getOr? (key : String) (default? : Option Value) :
    Sustains (AllCached P) (fun _ => True) (m.getOr? key default?) := by
  cases default? with
  | none => exact sustains_ask hm (.get key)
  | some default =>
    refine sustains_bind (sustains_ask hm (.getAs key _)) fun c? _ => ?_
    cases c? with
    | none => exact sustains_pure trivial
    | some c =>
      exact sustains_bind (sustains_of_keeps fun _ => rfl) fun _ _ =>
        sustains_pure trivial

theorem sustains_toText : Sustains (AllCached P) (fun _ => True) m.toText :=
  sustains_bind (sustains_map (sustains_result (sustains_fullRead hm))
    fun _ _ => trivial) fun _ (_ : True) =>
      (sustains_of_keeps fun _ => rfl).mono fun _ _ => trivial

end Queries

-- ============================================================= writes

section Writing

variable {m : PropertyMap σ} (hm : m.Makes P)
variable (hwritten : ∀ key v w entry w',
  Entry.ofValue m.node.session v w = (.ok entry, w') → P key ⟨entry, v⟩)

include hwritten

/-- The slot that a write is about to make. -/
theorem sustains_prepare (key : String) (v : Value) :
    Sustains (AllCached P) (fun prepared => P key ⟨prepared.1, v⟩)
      (m.prepare key v) := by
  refine sustains_bind (sustains_of_keeps
    (MapM.keeps_result (MapM.keeps_ofEntry fun _ => rfl)))
    fun made ⟨s, t, hrun⟩ => ?_
  cases made with
  | error e =>
    exact sustains_bind (sustains_of_keeps fun _ => rfl) fun _ _ =>
      sustains_throw _
  | ok entry =>
    have hmade : MapM.ofEntry (Entry.ofValue m.node.session v) s =
        (.ok entry, t) := by
      rw [MapM.run_result] at hrun
      obtain ⟨hok, hend⟩ := Prod.mk.inj hrun
      exact Prod.ext (Except.ok.inj hok) hend
    obtain ⟨w, hvalue, -⟩ := MapM.ok_of_run_ofEntry hmade
    exact sustains_bind
      (sustains_of_keeps (m.keeps_cache_escapeKey key)) fun _ _ =>
        sustains_bind (sustains_of_keeps
          (MapM.keeps_ofConversion fun _ => rfl)) fun _ _ =>
            sustains_pure (hwritten key v s.world entry w hvalue)

include hm

/-- A put reads everything and sets one slot, which was made before the node
was written to. -/
theorem sustains_put (key : String) (v : Value) :
    Sustains (AllCached P) (fun _ => True) (m.put key v) := by
  unfold put
  dsimp only
  split
  · exact sustains_refused _
  split
  · exact sustains_refused _
  · refine sustains_bind (sustains_fullRead hm) fun _ _ =>
      sustains_bind (sustains_ask hm (.get _)) fun previous _ =>
        sustains_bind (sustains_prepare hwritten _ v) fun prepared hslot =>
          sustains_bind (sustains_of_keeps (m.keeps_cache_commit _ v _))
            fun _ _ => sustains_bind
              (sustains_modifySlots fun d hd => hd.set hslot) fun _ _ =>
                sustains_pure trivial

/-- Puts one after the other, up to the first that fails. -/
theorem sustains_putAll (entries : List (String × Value)) :
    Sustains (AllCached P) (fun _ => True) (m.putAll entries) := by
  have heach : Sustains (AllCached P) (fun _ => True) (m.putEach entries) := by
    induction entries with
    | nil => exact sustains_pure trivial
    | cons e rest ih =>
      exact sustains_bind (sustains_map (sustains_put hm hwritten e.1 e.2)
        fun _ _ => trivial) fun _ (_ : True) => ih
  unfold putAll
  dsimp only
  split
  · exact sustains_refused _
  · exact heach

omit hwritten in
/-- A removal reads everything and takes one slot out. -/
theorem sustains_remove (key : String) :
    Sustains (AllCached P) (fun _ => True) (m.remove key) := by
  unfold remove
  dsimp only
  split
  · exact sustains_refused _
  · exact sustains_bind (sustains_fullRead hm) fun _ _ =>
      sustains_bind (sustains_of_keeps (m.keeps_cache_withdraw _))
        fun _ _ => sustains_bind sustains_slots fun slots _ =>
          sustains_bind (sustains_modifySlots fun d hd => hd.erase _)
            fun _ _ => sustains_pure trivial

/-- A request, however it is answered. -/
theorem slotsSatisfy_answer (q : Request) {s : MapState σ}
    (hs : SlotsSatisfy P s.cache.slots) :
    SlotsSatisfy P (m.answer q s).2.cache.slots := by
  cases q with
  | put key v => exact (sustains_put hm hwritten key v s hs).1
  | putAll entries => exact (sustains_putAll hm hwritten entries s hs).1
  | remove key => exact (sustains_remove hm key s hs).1
  | clear => exact hs
  | get key => exact (sustains_ask hm (.get key) s hs).1
  | keys => exact (sustains_ask hm .keys s hs).1
  | entries => exact (sustains_ask hm .entries s hs).1
  | values => exact (sustains_ask hm .values s hs).1
  | size => exact (sustains_ask hm .size s hs).1
  | containsValue v => exact (sustains_ask hm (.containsValue v) s hs).1

end Writing

-- ============================================================== states

/-- The states that a map comes to. It is asked and written to in any
order, and in between anything may happen to what it shares with others:
the prefixes of its provider, and the world with its node. -/
inductive Reached (m : PropertyMap σ) : MapState σ → Prop where
  | fresh (prefixes : PrefixCache) (w : World σ) :
      Reached m ⟨.empty, prefixes, w⟩
  | meanwhile {s : MapState σ} (h : Reached m s) (prefixes : PrefixCache)
      (w : World σ) : Reached m ⟨s.cache, prefixes, w⟩
  | asked {s : MapState σ} (h : Reached m s) (q : Query) :
      Reached m (m.ask q s).2
  | askedIfEmpty {s : MapState σ} (h : Reached m s) :
      Reached m (m.isEmpty s).2
  | askedTyped {s : MapState σ} (h : Reached m s) (α : Type)
      [Convertible σ α] (key : String) : Reached m (m.getTyped? α key s).2
  | askedOr {s : MapState σ} (h : Reached m s) (key : String)
      (default? : Option Value) : Reached m (m.getOr? key default? s).2
  | shown {s : MapState σ} (h : Reached m s) : Reached m (m.toText s).2
  | answered {s : MapState σ} (h : Reached m s) (q : Request) :
      Reached m (m.answer q s).2

/-- What holds of every slot that is made holds of every slot that is
cached. -/
theorem Reached.slotsSatisfy {m : PropertyMap σ}
    {P : String → Slot σ → Prop} (hm : m.Makes P)
    (hwritten : ∀ key v w entry w',
      Entry.ofValue m.node.session v w = (.ok entry, w') → P key ⟨entry, v⟩)
    {s : MapState σ} (h : m.Reached s) : SlotsSatisfy P s.cache.slots := by
  induction h with
  | fresh => exact .empty
  | meanwhile _ _ _ ih => exact ih
  | asked _ q ih => exact (sustains_ask hm q _ ih).1
  | askedIfEmpty _ ih => exact (sustains_isEmpty hm _ ih).1
  | askedTyped _ α key ih => exact (sustains_getTyped? hm α key _ ih).1
  | askedOr _ key default? ih =>
    exact (sustains_getOr? hm key default? _ ih).1
  | shown _ ih => exact (sustains_toText hm _ ih).1
  | answered _ q ih => exact slotsSatisfy_answer hm hwritten q ih

end PropertyMap

end ContentProperties
