/-
The life of a cache. A map is asked anything, any number of times, while
its node changes and fails as it likes and other maps act on the same
prefixes and the same world. What it has cached it keeps, in order and
with the same values, and a path adds nothing. Each attempt at a full
read enumerates the node once, up to the first that succeeds. From then
on the cache is final, and a key that is no path is answered from it
alone, as is what needs no key.

# The proof

A query is a full read, if it needs one, and then a look (`ask_eq`). The
two halves come from the files on growth and on logs; one query is then
`grows_ask`, `run_ask_logged` and their companions, and a run follows by
induction over its events (`run_after_logged`, `cached_answers_stay`).
-/
import ContentProperties.Proofs.Map.CacheGrowth
import ContentProperties.Proofs.Map.LoggedReads
import ContentProperties.Proofs.Map.Reading

namespace ContentProperties

variable {σ : Type}

-- ============================================================ queries

/-- What a map can be asked. -/
inductive Query where
  | get (key : String)
  | getAs (key : String) (target : ValueType)
  | containsKey (key : String)
  | containsValue (v : Value)
  | size
  | keys
  | entries
  | values
  | readFully

namespace Query

/-- What the query yields if it does not fail. -/
def Result (σ : Type) : Query → Type
  | get _ => Option Value
  | getAs .. => Option (Converted σ)
  | containsKey _ => Bool
  | containsValue _ => Bool
  | size => Nat
  | keys => List String
  | entries => List (String × Value)
  | values => List Value
  | readFully => Unit

/-- The result on the node with a log. -/
def logged : (q : Query) → q.Result σ → q.Result (Logged σ)
  | get _, v? => v?
  | getAs .., c? => Option.map Converted.logged c?
  | containsKey _, b => b
  | containsValue _, b => b
  | size, n => n
  | keys, names => names
  | entries, es => es
  | values, vs => vs
  | readFully, done => done

/-- Whether the query starts with a full read. -/
def readsAll : Query → Bool
  | get _ | getAs .. => false
  | _ => true

/-- The key that is read, if there is one. -/
def key? : Query → Option String
  | get key | getAs key _ | containsKey key => some (PropertyMap.plainKey key)
  | _ => none

/-- The query reads no path. -/
def SlashFree (q : Query) : Prop :=
  ∀ key ∈ q.key?, PropertyMap.isPath key = false

/-- The query does nothing but read a path. -/
def ReadsPath (q : Query) : Prop :=
  q.readsAll = false ∧ ∀ key ∈ q.key?, PropertyMap.isPath key = true

end Query

namespace PropertyMap

variable (m : PropertyMap σ)

/-- Asks a map. -/
def ask : (q : Query) → MapM σ (q.Result σ)
  | .get key => m.get? key
  | .getAs key target => m.getAs? key target
  | .containsKey key => m.containsKey key
  | .containsValue v => m.containsValue v
  | .size => m.size
  | .keys => m.keys
  | .entries => m.entries
  | .values => m.values
  | .readFully => m.readFully

/-- Reads the key of a query. -/
def find (q : Query) : MapM σ (Option (Slot σ)) :=
  match q.key? with
  | some key => m.read key
  | none => pure none

/-- The slot converted. -/
def convertSlot (target : ValueType) (slot? : Option (Slot σ)) :
    MapM σ (Option (Converted σ)) :=
  if target = .unknown then
    pure ((slot?.map (·.value)).map Converted.value)
  else
    match slot? with
    | none => pure none
    | some slot =>
        MapM.ofConversion
          (slot.entry.convert m.node.session m.provider target)

/-- What a query makes of the slot of its key, and of all slots. -/
def conclude : (q : Query) → Option (Slot σ) → MapM σ (q.Result σ)
  | .get _, slot? => pure (slot?.map (·.value))
  | .getAs _ target, slot? => m.convertSlot target slot?
  | .containsKey _, slot? => pure slot?.isSome
  | .containsValue v, _ => do
      let slots ← MapM.slots
      pure (slots.values.any fun slot => slot.value == v)
  | .size, _ => do
      let slots ← MapM.slots
      pure slots.size
  | .keys, _ => do
      let slots ← MapM.slots
      pure slots.keys
  | .entries, _ => do
      let slots ← MapM.slots
      pure (slots.entries.map fun e => (e.1, e.2.value))
  | .values, _ => do
      let slots ← MapM.slots
      pure (slots.values.map (·.value))
  | .readFully, _ => pure ()

/-- The full read that a query starts with. -/
def prepareFor (q : Query) : MapM σ Unit :=
  if q.readsAll then m.readFully else pure ()

theorem ask_eq (q : Query) : m.ask q = (do
    m.prepareFor q
    let slot? ← m.find q
    m.conclude q slot?) := by
  cases q with
  | getAs key target =>
    show m.getAs? key target =
      m.read (plainKey key) >>= m.conclude (.getAs key target)
    unfold getAs?
    by_cases htarget : target = .unknown
    · -- Without a preference it is a plain read.
      subst htarget
      rw [if_pos rfl, get?, bind_assoc]
      rfl
    · rw [if_neg htarget]
      refine congrArg _ (funext fun slot? => ?_)
      exact (if_neg htarget).symm
  | readFully => exact (bind_pure m.readFully).symm
  | _ => rfl

-- ======================================================= its two halves

theorem grows_find (q : Query) : Grows (m.find q) := by
  unfold find
  split
  · exact grows_read m _
  · exact grows_pure none

theorem follows_find (q : Query) :
    Follows MapState.logged NoEnumeration (Option.map Slot.logged)
      (m.find q) (m.logged.find q) := by
  unfold find
  split
  · exact follows_read m _
  · exact follows_pure none

theorem keeps_cache_conclude (q : Query) (slot? : Option (Slot σ)) :
    Keeps MapState.cache (m.conclude q slot?) := by
  cases q with
  | getAs key target =>
    show Keeps MapState.cache (m.convertSlot target slot?)
    unfold convertSlot
    split
    · exact keeps_pure _
    · cases slot? with
      | none => exact keeps_pure none
      | some slot => exact MapM.keeps_ofConversion fun _ => rfl
  | _ => exact fun _ => rfl

/-- Nothing is asked for once the slot of the key is known. -/
theorem follows_conclude (q : Query) (slot? : Option (Slot σ)) :
    Follows MapState.logged Quiet q.logged (m.conclude q slot?)
      (m.logged.conclude q (slot?.map Slot.logged)) := by
  cases q with
  | get key => cases slot? <;> exact follows_pure _
  | getAs key target =>
    show Follows _ _ _ (m.convertSlot target slot?)
      (m.logged.convertSlot target _)
    unfold convertSlot
    split
    · cases slot? <;> exact follows_pure _
    · cases slot? with
      | none => exact follows_pure none
      | some slot =>
        exact MapM.follows_ofConversion (Entry.follows_convert target)
  | containsKey key => cases slot? <;> exact follows_pure _
  | readFully => exact follows_pure ()
  | _ =>
    refine MapM.follows_ofSlots fun d => ?_
    simp [Dict.map, Dict.values, Dict.size, Dict.keys, namesOf, Slot.logged,
      Query.logged, Function.comp_def]
    rfl

variable {m} {s : MapState σ}

/-- The cache is as it was after reading a path, and after reading any key
of a map that has read everything. -/
theorem cache_find {q : Query}
    (h : (∀ key ∈ q.key?, isPath key = true) ∨ s.cache.fullyRead = true) :
    (m.find q s).2.cache = s.cache := by
  unfold find
  cases hkey : q.key? with
  | none => rfl
  | some key =>
    dsimp only
    by_cases hne : key = ""
    · simp [read, hne]
    cases hpath : isPath key with
    | true =>
      simp only [read, hne, hpath, if_true, if_false]
      exact keeps_cache_readPath m key s
    | false =>
      have hs : s.cache.fullyRead = true := by
        refine h.resolve_left fun hall => ?_
        simpa [hpath] using hall key hkey
      rw [read_of_fullyRead hs hne hpath]

/-- After a full read nothing is asked for a key that is no path. -/
theorem run_find_logged (hs : s.cache.fullyRead = true) {q : Query}
    (hq : q.SlashFree) (log : List NodeCall) :
    ∃ slot?, m.find q s = (.ok slot?, s) ∧
      m.logged.find q (s.logged log) =
        (.ok (slot?.map Slot.logged), s.logged log) := by
  have hs' : (s.logged log).cache.fullyRead = true := hs
  unfold find
  cases hkey : q.key? with
  | none => exact ⟨none, rfl, rfl⟩
  | some key =>
    have hpath : isPath key = false := hq key hkey
    dsimp only
    by_cases hne : key = ""
    · exact ⟨none, by simp [read, hne], by simp [read, hne]⟩
    · refine ⟨_, read_of_fullyRead hs hne hpath, ?_⟩
      rw [read_of_fullyRead hs' hne hpath, ← Dict.get?_map]
      rfl

-- ============================================================ one query

/-- Nothing comes before a query that needs no full read, or has one
behind it. -/
theorem prepareFor_of_ready {q : Query}
    (h : q.readsAll = false ∨ s.cache.fullyRead = true) :
    m.prepareFor q s = (.ok (), s) := by
  unfold prepareFor
  split
  · next hq => exact readFully_of_fullyRead (h.resolve_left (by simp [hq]))
  · rfl

/-- A query only adds to the cache. It leaves the map fully read if it was
that before, or if it starts with a full read that succeeds. -/
theorem cache_ask (q : Query) :
    s.cache.slots.entries <+: (m.ask q s).2.cache.slots.entries ∧
    ((m.ask q s).2.cache.fullyRead = true ↔ s.cache.fullyRead = true ∨
      (q.readsAll = true ∧ (m.readFully s).1 = .ok ())) := by
  have hrest : Grows (m.find q >>= m.conclude q) :=
    grows_bind (grows_find m q) fun slot? =>
      grows_of_keeps (keeps_cache_conclude m q slot?)
  rw [ask_eq, prepareFor]
  cases hq : q.readsAll with
  | false =>
    obtain ⟨hadds, hnoted⟩ := hrest s
    refine ⟨hadds, ?_⟩
    show (((m.find q >>= m.conclude q) s).2.cache.fullyRead = true ↔ _)
    rw [hnoted]
    simp
  | true =>
    -- A full read that fails has added what it came to, and ends the
    -- query; after one that succeeds the rest of the query adds too.
    obtain ⟨hadds, hnoted⟩ := cache_readFully m s
    have hready : (s.cache.fullyRead = true ∨ (true = true ∧
        (m.readFully s).1 = .ok ())) ↔ (m.readFully s).1 = .ok () := by
      refine ⟨fun h => h.elim (fun hs => ?_) (·.2), fun h => .inr ⟨rfl, h⟩⟩
      rw [readFully_of_fullyRead hs]
    rw [hready, if_pos rfl, run_bind]
    rcases hread : m.readFully s with ⟨e | _, t⟩ <;> rw [hread] at hadds hnoted
    · exact ⟨hadds, hnoted⟩
    · obtain ⟨hadds', hsame⟩ := hrest t
      exact ⟨hadds.trans hadds', iff_of_true (hsame.trans (hnoted.2 rfl)) rfl⟩

/-- A path leaves the cache as it was, and so does every query after a
full read. -/
theorem cache_ask_of_final {q : Query}
    (h : q.ReadsPath ∨ s.cache.fullyRead = true) :
    (m.ask q s).2.cache = s.cache := by
  rw [ask_eq, run_bind_of_ok (prepareFor_of_ready (h.imp_left (·.1))),
    run_bind]
  have hfind : (m.find q s).2.cache = s.cache :=
    cache_find (h.imp_left (·.2))
  rcases hrun : m.find q s with ⟨e | slot?, t⟩ <;> rw [hrun] at hfind
  · exact hfind
  · exact (keeps_cache_conclude m q slot? t).trans hfind

theorem run_prepareFor_logged (q : Query) (log : List NodeCall) :
    ∃ asked, m.logged.prepareFor q (s.logged log) =
        ((m.prepareFor q s).1.map id,
          (m.prepareFor q s).2.logged (log ++ asked)) ∧
      asked.count .enumeration =
        if q.readsAll && !s.cache.fullyRead then 1 else 0 := by
  unfold prepareFor
  cases q.readsAll with
  | false =>
    refine ⟨[], ?_, rfl⟩
    rw [List.append_nil]
    rfl
  | true =>
    obtain ⟨asked, hrun, hcount, -⟩ := run_readFully_logged m s log
    refine ⟨asked, hrun, hcount.trans ?_⟩
    cases s.cache.fullyRead <;> rfl

/-- A query on a node with a log yields what it yields on the node. It
enumerates once if it starts with a full read that has not been done,
and never else; after a full read it asks for nothing unless it reads a
path. -/
theorem run_ask_logged (q : Query) (log : List NodeCall) :
    ∃ asked, m.logged.ask q (s.logged log) =
        ((m.ask q s).1.map q.logged, (m.ask q s).2.logged (log ++ asked)) ∧
      asked.count .enumeration =
        (if q.readsAll && !s.cache.fullyRead then 1 else 0) ∧
      (s.cache.fullyRead = true → q.SlashFree → asked = []) := by
  have hrest : Follows MapState.logged NoEnumeration q.logged
      (m.find q >>= m.conclude q) (m.logged.find q >>= m.logged.conclude q) :=
    follows_bind (follows_find m q) fun slot? =>
      (follows_conclude m q slot?).of_quiet
  rw [ask_eq, ask_eq]
  by_cases hfinal : s.cache.fullyRead = true ∧ q.SlashFree
  · -- The cache answers, and conclusions are quiet.
    obtain ⟨hs, hq⟩ := hfinal
    have hs' : (s.logged log).cache.fullyRead = true := hs
    obtain ⟨slot?, hfind, hfind'⟩ := run_find_logged (m := m) hs hq log
    refine ⟨[], ?_, by simp [hs], fun _ _ => rfl⟩
    rw [run_bind_of_ok (prepareFor_of_ready (.inr hs)),
      run_bind_of_ok (prepareFor_of_ready (.inr hs')),
      run_bind_of_ok hfind, run_bind_of_ok hfind', List.append_nil]
    exact (follows_conclude m q slot?).run_of_quiet s log
  · obtain ⟨asked, hprepared, hcount⟩ := run_prepareFor_logged (m := m)
      (s := s) q log
    rw [run_bind, run_bind, hprepared]
    rcases m.prepareFor q s with ⟨e | _, t⟩
    · exact ⟨asked, rfl, hcount, fun hs hq => absurd ⟨hs, hq⟩ hfinal⟩
    · -- What comes after the full read asks for more, but never enumerates.
      obtain ⟨more, hrun, hmore⟩ := hrest t (log ++ asked)
      have hnone : more.count .enumeration = 0 :=
        List.count_eq_zero.2 fun h => hmore _ h rfl
      refine ⟨asked ++ more, ?_, ?_, fun hs hq => absurd ⟨hs, hq⟩ hfinal⟩
      · rw [← List.append_assoc]
        exact hrun
      · rw [List.count_append, hcount, hnone, Nat.add_zero]

end PropertyMap

-- ================================================================ runs

/-- Something is asked. Before that anything may have happened to what the
map shares with others: the prefixes of its provider, and the world. -/
structure Event (σ : Type) where
  meanwhile : PrefixCache → World σ → PrefixCache × World σ
  query : Query

/-- Something is asked, and nothing has happened before. -/
def Event.calm (q : Query) : Event σ := ⟨fun prefixes w => (prefixes, w), q⟩

/-- The state in which the query is asked. -/
def Event.before (e : Event σ) (s : MapState σ) : MapState σ :=
  let (prefixes, w) := e.meanwhile s.prefixes s.world
  ⟨s.cache, prefixes, w⟩

/-- The event in a world with a log, which it does not touch. -/
def Event.logged (e : Event σ) : Event (Logged σ) where
  meanwhile prefixes w :=
    let (prefixes, v) := e.meanwhile prefixes ⟨w.streams, w.repo.repo⟩
    (prefixes, v.logged w.repo.calls)
  query := e.query

/-- The number of attempts up to the first that succeeds. -/
def upToSuccess : List (Except MapError Unit) → Nat
  | [] => 0
  | .ok _ :: _ => 1
  | .error _ :: rest => upToSuccess rest + 1

namespace PropertyMap

variable (m : PropertyMap σ)

def step (s : MapState σ) (e : Event σ) : MapState σ :=
  (m.ask e.query (e.before s)).2

/-- The state after events. -/
def after (events : List (Event σ)) (s : MapState σ) : MapState σ :=
  events.foldl m.step s

/-- The attempts at a full read that events make, and how they end. -/
def attempts : List (Event σ) → MapState σ → List (Except MapError Unit)
  | [], _ => []
  | e :: rest, s =>
      (if e.query.readsAll then [(m.readFully (e.before s)).1] else []) ++
        attempts rest (m.step s e)

variable {m} {s : MapState σ}

theorem cache_step (e : Event σ) :
    s.cache.slots.entries <+: (m.step s e).cache.slots.entries ∧
    ((m.step s e).cache.fullyRead = true ↔ s.cache.fullyRead = true ∨
      (e.query.readsAll = true ∧ (m.readFully (e.before s)).1 = .ok ())) :=
  cache_ask (s := e.before s) e.query

/-- Events only add to the cache, and leave the map fully read if one of
their attempts succeeds. -/
theorem cache_after (events : List (Event σ)) :
    s.cache.slots.entries <+: (m.after events s).cache.slots.entries ∧
    ((m.after events s).cache.fullyRead = true ↔
      s.cache.fullyRead = true ∨ .ok () ∈ m.attempts events s) := by
  induction events generalizing s with
  | nil => exact ⟨List.prefix_rfl, by simp [after, attempts]⟩
  | cons e rest ih =>
    obtain ⟨hadds, hnoted⟩ := cache_step (m := m) (s := s) e
    obtain ⟨hadds', hnoted'⟩ := ih (s := m.step s e)
    refine ⟨hadds.trans hadds', hnoted'.trans ?_⟩
    rw [hnoted, attempts, List.mem_append]
    cases e.query.readsAll with
    | false => simp
    | true => simp [or_assoc, @eq_comm _ (Except.ok ())]

theorem cache_after_of_final {events : List (Event σ)}
    (h : (∀ e ∈ events, e.query.ReadsPath) ∨ s.cache.fullyRead = true) :
    (m.after events s).cache = s.cache := by
  induction events generalizing s with
  | nil => rfl
  | cons e rest ih =>
    have hstep : (m.step s e).cache = s.cache :=
      cache_ask_of_final (s := e.before s)
        (h.imp_left fun hall => hall e (List.mem_cons_self ..))
    refine (ih ?_).trans hstep
    rw [hstep]
    exact h.imp_left fun hall e he => hall e (List.mem_cons_of_mem _ he)

/-- The attempt of one event counts unless one has succeeded before. -/
theorem upToSuccess_step {done done' readsAll : Bool}
    {outcome : Except MapError Unit}
    (hdone : done' = true ↔ done = true ∨ (readsAll = true ∧ outcome = .ok ()))
    (rest : List (Except MapError Unit)) :
    (if readsAll && !done then 1 else 0) +
        (if done' then 0 else upToSuccess rest) =
      if done then 0
      else upToSuccess ((if readsAll then [outcome] else []) ++ rest) := by
  cases done with
  | true => simp [hdone.2 (.inl rfl)]
  | false =>
    cases readsAll with
    | false =>
      have hstill : done' = false := by simpa using hdone
      simp [hstill]
    | true =>
      cases outcome with
      | ok u => simp [hdone.2 (.inr ⟨rfl, rfl⟩), upToSuccess]
      | error e =>
        have hstill : done' = false := by simpa using hdone
        simp [hstill, upToSuccess, Nat.add_comm]

/-- Events on a node with a log leave the state that they leave on the
node. They enumerate once for each attempt up to the first that
succeeds, and never after that. -/
theorem run_after_logged (events : List (Event σ)) (log : List NodeCall) :
    ∃ asked, m.logged.after (events.map Event.logged) (s.logged log) =
        (m.after events s).logged (log ++ asked) ∧
      asked.count .enumeration = (if s.cache.fullyRead then 0
        else upToSuccess (m.attempts events s)) ∧
      (s.cache.fullyRead = true → (∀ e ∈ events, e.query.SlashFree) →
        asked = []) := by
  induction events generalizing s log with
  | nil =>
    refine ⟨[], ?_, by cases s.cache.fullyRead <;> rfl, fun _ _ => rfl⟩
    rw [List.append_nil]
    rfl
  | cons e rest ih =>
    obtain ⟨asked, hask, hcount, hquiet⟩ :=
      run_ask_logged (m := m) (s := e.before s) e.query log
    obtain ⟨more, hrest, hmore, hquiet'⟩ :=
      ih (s := m.step s e) (log ++ asked)
    obtain ⟨-, hnoted⟩ := cache_step (m := m) (s := s) e
    have hstep : m.logged.step (s.logged log) e.logged =
        (m.step s e).logged (log ++ asked) :=
      congrArg Prod.snd hask
    refine ⟨asked ++ more, ?_, ?_, ?_⟩
    · show m.logged.after (rest.map Event.logged)
        (m.logged.step (s.logged log) e.logged) = _
      rw [hstep, hrest, List.append_assoc]
      rfl
    · rw [List.count_append, hcount, hmore]
      exact upToSuccess_step hnoted _
    · intro hs hall
      have hdone : (m.step s e).cache.fullyRead = true := hnoted.2 (.inl hs)
      rw [hquiet hs (hall e (List.mem_cons_self ..)),
        hquiet' hdone fun e he => hall e (List.mem_cons_of_mem _ he)]
      rfl

/-- What a map has cached never changes, and it is read in full once. The
map is asked anything, and in between its node, the world and the
prefixes change as they like. A node with a log shows what is asked for,
and changes nothing else.

Between any two moments entries are added at the end at most, and none
by reading paths. The enumerations are as many as the attempts at a full
read up to the first that succeeds. After it the cache is final, there
is no enumeration, and nothing at all is asked for but by paths. -/
theorem cached_answers_stay (m : PropertyMap σ) (prefixes : PrefixCache)
    (w : World σ) (earlier later : List (Event σ)) :
    let start : MapState σ := ⟨.empty, prefixes, w⟩
    let s := m.after earlier start
    let t := m.after later s
    ∃ calls more : List NodeCall,
      m.logged.after (earlier.map Event.logged) (start.logged []) =
        s.logged calls ∧
      m.logged.after (later.map Event.logged) (s.logged calls) =
        t.logged (calls ++ more) ∧
      (∀ q : Query, (m.logged.ask q (s.logged calls)).1 =
        (m.ask q s).1.map q.logged) ∧
      s.cache.slots.entries <+: t.cache.slots.entries ∧
      ((∀ e ∈ later, e.query.ReadsPath) → t.cache = s.cache) ∧
      calls.count .enumeration = upToSuccess (m.attempts earlier start) ∧
      (.ok () ∈ m.attempts earlier start →
        t.cache = s.cache ∧ .enumeration ∉ more ∧
        ((∀ e ∈ later, e.query.SlashFree) → more = [])) := by
  intro start s t
  -- The log of the earlier events starts empty, and the later ones go on
  -- with it.
  obtain ⟨calls, hcalls, hcount, -⟩ :=
    run_after_logged (m := m) (s := start) earlier []
  obtain ⟨more, hmore, hcount', hquiet⟩ :=
    run_after_logged (m := m) (s := s) later calls
  have hdone : .ok () ∈ m.attempts earlier start →
      s.cache.fullyRead = true := fun h =>
    (cache_after (m := m) (s := start) earlier).2.2 (.inr h)
  refine ⟨calls, more, hcalls, hmore, ?_, (cache_after later).1, ?_, hcount,
    ?_⟩
  · intro q
    obtain ⟨asked, hask, -⟩ := run_ask_logged (m := m) (s := s) q calls
    rw [hask]
  · exact fun hpaths => cache_after_of_final (.inl hpaths)
  · intro h
    refine ⟨cache_after_of_final (.inr (hdone h)), ?_, hquiet (hdone h)⟩
    rw [hdone h] at hcount'
    exact List.count_eq_zero.1 hcount'

/-- Asking for the size reads everything. What is asked then is answered
from the cache: a value is not looked up, and listing does not enumerate
again. -/
theorem sample_is_enumerated_once :
    ∃ s calls, Memory.Site.sample.map.logged.after
        ([.calm .size, .calm (.get "a"), .calm .keys].map Event.logged)
        (Memory.Site.sampleState.logged []) = MapState.logged s calls ∧
      calls.count .enumeration = 1 := by
  obtain ⟨calls, more, hearlier, hlater, -, -, -, hcount, hdone⟩ :=
    cached_answers_stay Memory.Site.sample.map none ⟨⟨1, []⟩, .sample⟩
      [.calm .size] [.calm (.get "a"), .calm .keys]
  have hattempts : Memory.Site.sample.map.attempts [.calm .size]
      ⟨.empty, none, ⟨⟨1, []⟩, .sample⟩⟩ = [.ok ()] := rfl
  rw [hattempts] at hcount hdone
  have hplain : ∀ e ∈ ([.calm (.get "a"), .calm .keys] :
      List (Event Memory.Repository)), e.query.SlashFree := by
    intro e he key hkey
    simp only [List.mem_cons, List.not_mem_nil, or_false] at he
    rcases he with rfl | rfl <;> cases hkey
    decide
  have hmore : more = [] :=
    (hdone (List.mem_singleton_self _)).2.2 hplain
  rw [hmore, List.append_nil, ← hearlier] at hlater
  exact ⟨_, calls, hlater, hcount⟩

end PropertyMap

end ContentProperties
