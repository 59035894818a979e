/-
Binaries read as numbers. A property with binaries converts to numbers by
their lengths, which the property knows and the binaries need not: what
the node keeps is content in memory, also where it was given a stream. So
a map that reads finds one number for each binary, none of them missing,
and finds the same ones however often the key was looked up before. A
binary that is about to be written has no property yet, and no number.

# Method

A property with any number of binaries converts as properties with one of
them each (`Entry.SplitsInto`), and one binary converts as its length does
(`HoldsOne.convert_length`). On the side of the map all that is needed is
that a map whose lookups were all under one key has at most one property
in its cache, and finds that property (`Site.Alone.run_read`).
-/
import ContentProperties.Proofs.Conversion.Coercion
import ContentProperties.Proofs.Conversion.Items
import ContentProperties.Proofs.Map.BinaryWrites
import ContentProperties.Proofs.Map.Lookup

namespace ContentProperties

namespace Entry

variable {σ : Type} {session : Session σ} {provider : Provider}
variable {target : ValueType} {part : Entry σ} {parts : List (Entry σ)}

-- ============================================================== numbers

/-- An integer converts to every kind of number, wherever it is kept. -/
theorem exists_convertPlain_long (session : Session σ)
    (htarget : target.isNumeric = true) (n : Int64) :
    ∃ number, ∀ e : Entry σ,
      convertPlain session e (.long n) target = pure (.value number) := by
  cases target with
  | byte | short | int | long | float | double | decimal =>
    exact ⟨_, fun _ => rfl⟩
  | _ => cases htarget

theorem isArray_of_isNumeric (htarget : target.isNumeric = true) :
    target.isArray = false := by
  cases target with
  | array _ => cases htarget
  | _ => rfl

theorem ne_property_of_isNumeric (htarget : target.isNumeric = true) :
    target ≠ .property := fun h => by
  rw [h] at htarget
  cases htarget

/-- One binary converts as its length does. -/
theorem HoldsOne.convert_length {b : Binary} {n : Nat} {number : Value}
    (h : part.HoldsOne (.binary b)) (hlength : part.lengthAt none = pure n)
    (htarget : target.isNumeric = true)
    (hnumber : ∀ e : Entry σ, convertPlain session e
      (.long (Int64.ofNat n)) target = pure (.value number)) :
    part.convert session provider target =
      pure (some (.value number)) := by
  rw [h.convert_eq (isArray_of_isNumeric htarget),
    convertScalar_of_isNumeric htarget, hlength, pure_bind, hnumber]
  rfl

/-- An integer that is about to be written converts as it does
anywhere. -/
theorem convert_pending_long (htarget : target.isNumeric = true) {n : Int64}
    {number : Value} (hnumber : ∀ e : Entry σ,
      convertPlain session e (.long n) target = pure (.value number)) :
    (⟨.pending (.long n), false⟩ : Entry σ).convert session provider target =
      pure (some (.value number)) := by
  have hcoercion : target.isCoercion = true := by
    cases target <;> first | rfl | cases htarget
  rw [(holdsOne_pending _).convert_eq (isArray_of_isNumeric htarget),
    convertScalar_eq_convertPlain rfl hcoercion, hnumber]
  rfl

/-- A binary that is about to be written has no length. -/
theorem convert_pending_binary (htarget : target.isNumeric = true)
    (b : Binary) :
    (⟨.pending (.binary b), false⟩ : Entry σ).convert session provider
      target = pure none := by
  rw [(holdsOne_pending _).convert_eq (isArray_of_isNumeric htarget),
    convertScalar_of_isNumeric htarget]
  rfl

/-- Entries that each yield a result convert to these results. -/
theorem convertEach_of_results {cs : List (Converted σ)}
    (h : List.Forall₂ (fun part c =>
      part.convert session provider target = pure (some c)) parts cs) :
    convertEach session provider target parts = pure cs := by
  induction h with
  | nil => rfl
  | cons hc _ ih =>
    unfold convertEach
    rw [hc, ih]
    rfl

/-- Entries that yield nothing convert to an empty array. -/
theorem convertEach_of_none (h : ∀ part ∈ parts,
    part.convert session provider target = pure none) :
    convertEach session provider target parts = pure [] := by
  induction parts with
  | nil => rfl
  | cons part rest ih =>
    unfold convertEach
    rw [h part List.mem_cons_self,
      ih fun u hu => h u (List.mem_cons_of_mem _ hu)]
    rfl

/-- The entry converts to no number, and to no number in an array. -/
structure HasNoNumber (session : Session σ) (provider : Provider)
    (target : ValueType) (e : Entry σ) : Prop where
  scalar : e.convert session provider target = pure none
  array : e.convert session provider (.array target) =
    pure (some (.array []))

theorem hasNoNumber_of_binary (htarget : target.isNumeric = true)
    (b : Binary) : HasNoNumber session provider target
      (⟨.pending (.binary b), false⟩ : Entry σ) where
  scalar := convert_pending_binary htarget b
  array := by
    rw [(holdsOne_pending _).convert_array (isArray_of_isNumeric htarget),
      convert_pending_binary htarget]
    rfl

theorem hasNoNumber_of_binaries (htarget : target.isNumeric = true)
    (bs : List Binary) : HasNoNumber session provider target
      (⟨.pending (.array (bs.map .binary)), true⟩ : Entry σ) := by
  have hsplit : SplitsInto session provider target
      (⟨.pending (.array (bs.map .binary)), true⟩ : Entry σ)
      ((bs.map .binary).map fun v => ⟨.pending v, false⟩) :=
    splitsInto_of_pending (isArray_of_isNumeric htarget)
      (ne_property_of_isNumeric htarget) _
  constructor
  · rw [hsplit.first]
    cases bs with
    | nil => rfl
    | cons b rest => exact convert_pending_binary htarget b
  · rw [hsplit.array, convertEach_of_none]
    · rfl
    · rw [List.map_map, List.forall_mem_map]
      exact fun b _ => convert_pending_binary htarget b

theorem ofValue_binaries (session : Session σ) (bs : List Binary)
    (w : World σ) : ofValue session (.array (bs.map .binary)) w =
      (.ok ⟨.pending (.array (bs.map .binary)), true⟩, w) := by
  have hcheck : checkAllStorable session (bs.map .binary) w =
      (.ok (), w) := by
    induction bs with
    | nil => rfl
    | cons b rest ih =>
      rw [List.map_cons, checkAllStorable, run_bind_of_ok
        (show checkStorable session (.binary b) w = (.ok (), w) from rfl), ih]
  exact run_bind_of_ok hcheck _

end Entry

namespace Memory

open PropertyMap Entry

variable {c : Site} {v : Surroundings} {s t : MapState Repository}
variable {b : Binary} {content : List UInt8}

-- ============================================================= contents

/-- The stored value is a binary with this content in memory. -/
def KeepsContent (x : StoredValue) (content : List UInt8) : Prop :=
  ∃ b : Binary, x = .binary b ∧ b.source = .buffered content

/-- The length of content in memory is known. -/
theorem KeepsContent.length {x : StoredValue} (hx : KeepsContent x content) :
    x.toValue.HasLength ∧ x.size = content.length := by
  obtain ⟨b, rfl, hb⟩ := hx
  have hlength : b.length? = some content.length := by
    rw [Binary.length?, hb]
    rfl
  exact ⟨by simp [StoredValue.toValue, Value.HasLength, hlength],
    by simp [StoredValue.size, hlength]⟩

/-- The property keeps these contents in memory, in this order. -/
structure StoredProperty.KeepsAll (p : StoredProperty)
    (contents : List (List UInt8)) : Prop where
  wellFormed : p.WellFormed
  values : List.Forall₂ KeepsContent p.values contents

section Numbers

variable {session : Session Repository} {provider : Provider}
variable {target : ValueType} {p : StoredProperty}
variable {contents : List (List UInt8)} {number : List UInt8 → Value}

/-- The number that stands for content of some length. -/
def NumbersLengths (session : Session Repository) (target : ValueType)
    (number : List UInt8 → Value) : Prop :=
  ∀ content (e : Entry Repository), convertPlain session e
    (.long (Int64.ofNat content.length)) target =
      pure (.value (number content))

/-- An entry with one binary converts to the number of its length. -/
theorem convert_of_keepsContent (htarget : target.isNumeric = true)
    (hnumber : NumbersLengths session target number)
    {part : Entry Repository} {x : StoredValue} (hx : KeepsContent x content)
    (hpart : part.HoldsOne x.toValue)
    (hlength : part.lengthAt none = pure x.size) :
    part.convert session provider target =
      pure (some (.value (number content))) := by
  rw [hx.length.2] at hlength
  obtain ⟨b, rfl, -⟩ := hx
  exact hpart.convert_length hlength htarget (hnumber content)

theorem convert_of_keepsAll (htarget : target.isNumeric = true)
    (hnumber : NumbersLengths session target number)
    {parts : List (Entry Repository)} {xs : List StoredValue}
    (hparts : List.Forall₂ (fun part x => part.HoldsOne
      (StoredValue.toValue x) ∧ part.lengthAt none = pure x.size)
      parts xs) (hxs : List.Forall₂ KeepsContent xs contents) :
    List.Forall₂ (fun part content => part.convert session provider target =
      pure (some (.value (number content)))) parts contents := by
  induction hparts generalizing contents with
  | nil =>
    cases hxs
    exact .nil
  | cons hpart _ ih =>
    cases hxs with
    | cons hx hrest =>
      exact .cons (convert_of_keepsContent htarget hnumber hx hpart.1 hpart.2)
        (ih hrest)

/-- A property with binaries converts to the numbers of their lengths, and
as one number to the first. -/
theorem StoredProperty.KeepsAll.convert (hp : p.KeepsAll contents)
    (htarget : target.isNumeric = true)
    (hnumber : NumbersLengths session target number) :
    p.slot.entry.convert session provider (.array target) =
        pure (some (.array (contents.map fun x => .value (number x)))) ∧
      p.slot.entry.convert session provider target =
        pure (contents.map fun x => .value (number x)).head? := by
  have harray := isArray_of_isNumeric htarget
  have hlengths : ∀ x ∈ p.values, x.toValue.HasLength := by
    intro x hx
    obtain ⟨content, -, hcontent⟩ := exists_of_forall₂ hp.values hx
    exact hcontent.length.1
  have hvalue := run_slot_value hp.wellFormed
  cases hmultiple : p.multiple with
  | false =>
    obtain ⟨x, hx⟩ := hp.wellFormed hmultiple
    obtain ⟨content, rfl, hcontent⟩ : ∃ content, contents = [content] ∧
        KeepsContent x content := by
      have h := hp.values
      rw [hx] at h
      cases h with
      | cons hcontent hrest =>
        cases hrest
        exact ⟨_, rfl, hcontent⟩
    have hone : p.slot.entry.HoldsOne x.toValue := by
      refine ⟨hmultiple, fun w => ?_⟩
      rw [hvalue, StoredProperty.natural, hmultiple, hx]
      rfl
    have hconvert : p.slot.entry.convert session provider target =
        pure (some (.value (number content))) :=
      convert_of_keepsContent htarget hnumber hcontent hone
        (lengthAt_of_single hmultiple hx
          (hlengths x (by rw [hx]; exact List.mem_cons_self)) rfl)
    refine ⟨?_, hconvert⟩
    rw [hone.convert_array harray, hconvert]
    rfl
  | true =>
    have hall : p.slot.entry.HoldsAll
        (p.values.map StoredValue.toValue) := by
      refine ⟨hmultiple, fun w => ?_⟩
      rw [hvalue, StoredProperty.natural, hmultiple]
      rfl
    -- the same values, each in a property of its own
    have halone : List.Forall₂
        (fun (q : StoredProperty) v => q.multiple = false ∧ q.values = [v])
        (p.values.map (.single p.name p.type)) p.values := by
      rw [List.forall₂_map_left_iff]
      exact List.forall₂_same.2 fun _ _ => ⟨rfl, rfl⟩
    obtain ⟨parts, -, hparts⟩ :=
      exists_parts (σ := Repository) halone hlengths
    have hone : List.Forall₂ HoldsOne parts
        (p.values.map StoredValue.toValue) := by
      rw [List.forall₂_map_right_iff]
      exact hparts.imp fun _ _ h => h.1
    have hsplit : p.slot.entry.SplitsInto session provider target parts :=
      splitsInto_of_findsAs harray hall hone (findsAs_of_properties
        (ne_property_of_isNumeric htarget) hmultiple hlengths rfl hparts)
    have hresults : List.Forall₂ (fun part content =>
        part.convert session provider target =
          pure (some (.value (number content)))) parts contents :=
      convert_of_keepsAll htarget hnumber hparts hp.values
    constructor
    · rw [hsplit.array, convertEach_of_results
        ((List.forall₂_map_right_iff ..).2 hresults)]
      rfl
    · rw [hsplit.first]
      cases hresults with
      | nil => rfl
      | cons hfirst _ => exact hfirst

end Numbers

-- =============================================================== writes

/-- The streams among binaries that open once only, by their names. -/
def onceOnly (bs : List Binary) : List Nat :=
  (bs.filter fun b => b.length?.isNone).map (·.id)

/-- The streams among the binaries are different ones, and none of them has
been opened. -/
structure CanOpen (bs : List Binary) (streams : Streams) : Prop where
  distinct : (onceOnly bs).Nodup
  unused : ∀ id ∈ onceOnly bs, id ∉ streams.consumed

/-- A binary that can be opened is kept with its content, and no other
stream is opened. -/
theorem run_buffered_binary (hb : b.Carries content) {bs : List Binary}
    {w : World Repository} (hopen : CanOpen (b :: bs) w.streams) :
    ∃ x u, buffered (.binary b) w = (.ok x, u) ∧ KeepsContent x content ∧
      u.repo = w.repo ∧ CanOpen bs u.streams := by
  rcases hb with hsource | hsource
  · have hlength : b.length? = some content.length := by
      rw [Binary.length?, hsource]
      rfl
    have honce : onceOnly (b :: bs) = onceOnly bs := by
      simp [onceOnly, hlength]
    refine ⟨.binary b, w, ?_, ⟨b, rfl, hsource⟩, rfl, ?_⟩
    · simp only [buffered, hlength]
      rfl
    · exact ⟨honce ▸ hopen.distinct, honce ▸ hopen.unused⟩
  · have hlength : b.length? = none := by
      rw [Binary.length?, hsource]
      rfl
    have honce : onceOnly (b :: bs) = b.id :: onceOnly bs := by
      simp [onceOnly, hlength]
    obtain ⟨hdistinct, hunused⟩ := hopen
    rw [honce, List.nodup_cons] at hdistinct
    rw [honce, List.forall_mem_cons] at hunused
    have hread : Act.readAll b w = (.ok content,
        ⟨⟨w.streams.nextId, b.id :: w.streams.consumed⟩, w.repo⟩) := by
      simp [Act.readAll, Binary.readAll, Binary.openReader, hsource,
        hunused.1, run_bind, ByteReader.drain]
    refine ⟨.binary ⟨w.streams.nextId, .buffered content⟩,
      ⟨⟨w.streams.nextId + 1, b.id :: w.streams.consumed⟩, w.repo⟩, ?_,
      ⟨_, rfl, rfl⟩, rfl, hdistinct.2, fun id hid => ?_⟩
    · simp only [buffered, hlength]
      rw [run_bind_of_ok hread]
      rfl
    · rw [List.mem_cons, not_or]
      refine ⟨fun heq => hdistinct.1 (heq ▸ hid), hunused.2 id hid⟩

/-- Binaries that can be opened are kept one by one. -/
theorem run_bufferedAll_binaries {bs : List Binary}
    {contents : List (List UInt8)}
    (hbs : List.Forall₂ Binary.Carries bs contents) {w : World Repository}
    (hopen : CanOpen bs w.streams) :
    ∃ xs u, bufferedAll (bs.map .binary) w = (.ok xs, u) ∧
      List.Forall₂ KeepsContent xs contents ∧ u.repo = w.repo := by
  induction hbs generalizing w with
  | nil => exact ⟨[], w, rfl, .nil, rfl⟩
  | @cons b content bs contents hb _ ih =>
    obtain ⟨x, u, hfirst, hx, hrepo, hrest⟩ := run_buffered_binary hb hopen
    obtain ⟨xs, u', hlater, hxs, hrepo'⟩ := ih hrest
    refine ⟨x :: xs, u', ?_, .cons hx hxs, hrepo'.trans hrepo⟩
    rw [List.map_cons, bufferedAll, run_bind_of_ok hfirst,
      run_bind_of_ok hlater]
    rfl

/-- A write under a name that is not protected goes on after it was
counted. -/
theorem run_unprotected {α : Type} (id : Nat) {name : String}
    (hp : name ≠ primaryTypeName) (hm : name ≠ mixinTypesName)
    (rest : Call α) (w : World Repository) :
    ∃ u, u.streams = w.streams ∧ contentOf u = contentOf w ∧
      (do checkWritable name; countWrite id; rest) w = rest u := by
  refine ⟨(countWrite id w).2, rfl, keeps_count id _ w, ?_⟩
  rw [run_bind_of_ok (run_checkWritable hp hm w), run_bind_of_ok
    (show countWrite id w = (.ok (), (countWrite id w).2) from rfl)]

/-- What is kept of binaries that are written under a name. -/
def Keeping (id : Nat) (name : String) (contents : List (List UInt8))
    (w : World Repository) (outcome : Except RepositoryError Unit ×
      World Repository) : Prop :=
  ∃ (p : StoredProperty) (u : World Repository), outcome = (.ok (), u) ∧
    p.name = name ∧ p.KeepsAll contents ∧
    contentOf u = (contentOf w).withProperty id p

theorem keeping_keep {id : Nat} {p : StoredProperty}
    {contents : List (List UInt8)} (hkeeps : p.KeepsAll contents)
    {w u : World Repository} (hu : contentOf u = contentOf w) :
    Keeping id p.name contents w (keep id p u) :=
  ⟨p, (keep id p u).2, rfl, rfl, hkeeps,
    (run_keep id p u).trans (by rw [hu])⟩

/-- One binary that can be opened can be set. -/
theorem run_setProperty_binary {id : Nat} {name : String}
    (hp : name ≠ primaryTypeName) (hm : name ≠ mixinTypesName)
    (hb : b.Carries content) {w : World Repository}
    (hopen : CanOpen [b] w.streams) :
    Keeping id name [content] w (setProperty id name (.binary b) w) := by
  obtain ⟨u, hstreams, hu, hrun⟩ := run_unprotected id hp hm
    (do
      let x ← buffered (.binary b)
      keep id (.single name x.propertyType x)) w
  obtain ⟨x, u', hbuffered, hx, hrepo, -⟩ :=
    run_buffered_binary hb (hstreams ▸ hopen)
  have hsame : contentOf u' = contentOf w :=
    (congrArg Repository.content hrepo).trans hu
  unfold setProperty
  rw [hrun, run_bind_of_ok hbuffered]
  exact keeping_keep (p := .single name x.propertyType x)
    ⟨fun _ => ⟨x, rfl⟩, .cons hx .nil⟩ hsame

/-- Any number of binaries that can be opened can be set. -/
theorem run_setMultiProperty_binaries {id : Nat} {name : String}
    (hp : name ≠ primaryTypeName) (hm : name ≠ mixinTypesName)
    {bs : List Binary} {contents : List (List UInt8)}
    (hbs : List.Forall₂ Binary.Carries bs contents) {w : World Repository}
    (hopen : CanOpen bs w.streams) :
    Keeping id name contents w
      (setMultiProperty id name (bs.map .binary) w) := by
  let typeOf (xs : List StoredValue) : PropertyType :=
    (xs.head?.map StoredValue.propertyType).getD .string
  obtain ⟨u, hstreams, hu, hrun⟩ := run_unprotected id hp hm
    (do
      let xs ← bufferedAll (bs.map .binary)
      keep id (.multi name (typeOf xs) xs)) w
  obtain ⟨xs, u', hbuffered, hxs, hrepo⟩ :=
    run_bufferedAll_binaries hbs (hstreams ▸ hopen)
  have hsame : contentOf u' = contentOf w :=
    (congrArg Repository.content hrepo).trans hu
  unfold setMultiProperty
  rw [hrun, run_bind_of_ok hbuffered]
  refine keeping_keep (p := .multi name (typeOf xs) xs) ⟨?_, hxs⟩ hsame
  intro hsingle
  cases hsingle

/-- The calls that store binaries under a name: as the only value or as
any number of them, by setting the property or by filling the node. -/
inductive Stores (id sid : Nat) (name : String) :
    List Binary → Call Unit → Prop where
  | one (b : Binary) :
      Stores id sid name [b] (setProperty id name (.binary b))
  | many (bs : List Binary) :
      Stores id sid name bs (setMultiProperty id name (bs.map .binary))
  | insertOne (b : Binary) :
      Stores id sid name [b] (insert id sid name (.binary b))
  | insertMany (bs : List Binary) :
      Stores id sid name bs (insert id sid name (.array (bs.map .binary)))

/-- Filling a node with binaries sets them. -/
theorem run_nativeAll_binaries (sid : Nat) (name : String)
    (bs : List Binary) (w : World Repository) :
    nativeAll sid name (bs.map .binary) w = (.ok (bs.map .binary), w) := by
  induction bs with
  | nil => rfl
  | cons b rest ih =>
    rw [List.map_cons, nativeAll, run_bind_of_ok
      (show native sid name (.binary b) w = (.ok (.binary b), w) from rfl),
      run_bind_of_ok ih]
    rfl

/-- Binaries that can be opened can be stored under a name that is not
protected. -/
theorem run_stores {id sid : Nat} {name : String} {bs : List Binary}
    {call : Call Unit} (hcall : Stores id sid name bs call)
    (hp : name ≠ primaryTypeName) (hm : name ≠ mixinTypesName)
    {contents : List (List UInt8)}
    (hbs : List.Forall₂ Binary.Carries bs contents) {w : World Repository}
    (hopen : CanOpen bs w.streams) :
    Keeping id name contents w (call w) := by
  have hone : ∀ b, bs = [b] →
      Keeping id name contents w (setProperty id name (.binary b) w) := by
    rintro b rfl
    cases hbs with
    | cons hb hrest =>
      cases hrest
      exact run_setProperty_binary hp hm hb hopen
  cases hcall with
  | one b => exact hone b rfl
  | many => exact run_setMultiProperty_binaries hp hm hbs hopen
  | insertOne b => exact hone b rfl
  | insertMany =>
    rw [show insert id sid name (.array (bs.map .binary)) w =
        setMultiProperty id name (bs.map .binary) w from
      run_bind_of_ok (run_nativeAll_binaries sid name bs w) _]
    exact run_setMultiProperty_binaries hp hm hbs hopen

-- =============================================================== reads

/-- A cache that has nothing but this property in it, if anything. -/
structure AloneIn (p : StoredProperty) (cache : Cache Repository) :
    Prop where
  unread : cache.fullyRead = false
  only : ∀ key slot, cache.slots.get? key = some slot → slot = p.slot

/-- A map in its surroundings that has nothing but this property in its
cache, if anything. -/
abbrev Site.Alone (c : Site) (v : Surroundings) (p : StoredProperty)
    (s : MapState Repository) : Prop :=
  c.Stands v (AloneIn p) s

namespace Site.Alone

variable {p : StoredProperty} {key : String}

/-- Under a key whose storage name is that of the property, the property is
found, cached or not. -/
theorem run_read (hs : c.Alone v p s)
    (hwf : (v.repo.nodes c.id).WellFormed) (hne : key ≠ "")
    (hpath : isPath key = false) (hp : (v.repo.nodes c.id).property?
      (storageName v.known key) = some p) :
    ∃ t, c.map.read key s = (.ok (some p.slot), t) ∧ c.Alone v p t := by
  obtain ⟨otherwise, hread⟩ := exists_readOr (m := c.map) hne hpath
  rw [hread]
  cases hslot : s.cache.slots.get? key with
  | some slot =>
    obtain rfl := hs.holds.only key slot hslot
    exact ⟨s, readOr_of_cached hslot otherwise, hs⟩
  | none =>
    obtain ⟨t, ht, hrun⟩ := run_readOr hs.node
      hwf hs.holds.unread hslot hpath otherwise
    have hfound : (s.cache.slots.get? (p.key c.options)).getD p.slot =
        p.slot := by
      cases hcached : s.cache.slots.get? (p.key c.options) with
      | none => rfl
      | some slot => exact hs.holds.only _ _ hcached
    rw [hs.known, hp] at hrun
    dsimp only at hrun
    rw [hfound] at hrun
    refine ⟨_, hrun, (hs.congr ht).surroundings, rfl, fun other slot h => ?_⟩
    rcases Dict.of_get?_addNew h with ⟨-, hnew⟩ | hold
    · exact hnew
    · exact hs.holds.only other slot hold

/-- Lookups under the key, typed or not, cache nothing else. -/
theorem lookAll (hs : c.Alone v p s)
    (hwf : (v.repo.nodes c.id).WellFormed) (hk : IsPlain key)
    (hp : (v.repo.nodes c.id).property?
      (storageName v.known (plainKey key)) = some p)
    {lookups : List Lookup} (hlookups : ∀ q ∈ lookups, q.key = key) :
    c.Alone v p (c.lookAll s lookups) := by
  refine lookAll_induction (fun q hq t ht => ?_) hs
  obtain ⟨u, hrun, hu⟩ := ht.run_read hwf hk.1 hk.2 hp
  rw [← hlookups q hq] at hrun
  refine look_of_read (fun _ _ ht hw => ht.world hw) hrun hu ?_
  intro slot hslot
  cases hslot
  exact p.calm_slot

/-- A typed lookup under the key converts the entry of the property. -/
theorem getAs?_eq (hs : c.Alone v p s)
    (hwf : (v.repo.nodes c.id).WellFormed) (hk : IsPlain key)
    (hp : (v.repo.nodes c.id).property?
      (storageName v.known (plainKey key)) = some p) {target : ValueType}
    (htarget : target ≠ .unknown)
    {converted? : Option (Converted Repository)}
    (hconvert : p.slot.entry.convert (session c.sid) c.provider target =
      pure converted?) :
    (c.map.getAs? key target s).1 = .ok converted? := by
  obtain ⟨t, hrun, -⟩ := hs.run_read hwf hk.1 hk.2 hp
  unfold getAs?
  rw [if_neg htarget, run_bind_of_ok hrun]
  show (MapM.ofConversion (p.slot.entry.convert (session c.sid) c.provider
    target) t).1 = _
  rw [hconvert, MapM.run_ofConversion, run_pure]

end Site.Alone

/-- Binaries as numbers of any kind. Stored under a name, each in memory
or in a stream of its own that has not been opened, they are found under
a key of that name as their lengths: as an array one number for each, and
as one number the first, if there is one. It does not matter how often
and as what the key was looked up before. An entry with binaries that are
about to be written has no number. -/
theorem binaries_read_as_lengths (c : Site) (target : ValueType)
    (htarget : target.isNumeric = true) :
    (∃ number : List UInt8 → Value,
      (∀ content w, (pendingSlot (.long
          (Int64.ofNat content.length))).entry.convert (session c.sid)
            c.provider target w =
        (.ok (some (.value (number content))), w)) ∧
      ∀ (name : String) (bs : List Binary) (contents : List (List UInt8))
        (call : Call Unit) (w : World Repository),
        w.repo.WellFormed → Stores c.id c.sid name bs call →
        name ≠ primaryTypeName → name ≠ mixinTypesName →
        List.Forall₂ Binary.Carries bs contents → CanOpen bs w.streams →
        ∃ u, call w = (.ok (), u) ∧
          ∀ (s : MapState Repository) (key : String) (earlier : List Lookup),
            contentOf s.world = contentOf u → s.cache = .empty →
            IsPlain key → storageName (c.known s) (plainKey key) = name →
            (∀ q ∈ earlier, q.key = key) →
            (c.map.getAs? key (.array target) (c.lookAll s earlier)).1 =
                .ok (some (.array
                  (contents.map fun x => .value (number x)))) ∧
              (c.map.getAs? key target (c.lookAll s earlier)).1 =
                .ok (contents.map fun x => .value (number x)).head?) ∧
    ∀ (session : Session Repository) (provider : Provider) (b : Binary)
      (bs : List Binary) (w : World Repository),
      ∃ one many, ofValue session (.binary b) w = (.ok one, w) ∧
        ofValue session (.array (bs.map .binary)) w = (.ok many, w) ∧
        one.HasNoNumber session provider target ∧
        many.HasNoNumber session provider target := by
  refine ⟨?_, fun session provider b bs w => ⟨_, _, rfl,
    ofValue_binaries session bs w, hasNoNumber_of_binary htarget b,
    hasNoNumber_of_binaries htarget bs⟩⟩
  choose number hnumber using fun content : List UInt8 =>
    exists_convertPlain_long (session c.sid) htarget
      (Int64.ofNat content.length)
  refine ⟨number, fun content w => congrFun (convert_pending_long htarget
    (hnumber content)) w, ?_⟩
  intro name bs contents call w hwf hcall hp hm hbs hopen
  obtain ⟨p, u, hrun, rfl, hkeeps, hcontent⟩ :=
    run_stores hcall hp hm hbs hopen
  refine ⟨u, hrun, fun s key earlier hs hcache hkey hname hearlier => ?_⟩
  have hrepo : (c.surroundings s).repo =
      (contentOf w).withProperty c.id p := hs.trans hcontent
  have hnodes : ((c.surroundings s).repo.nodes c.id).WellFormed := by
    rw [hrepo]
    exact (Repository.wellFormed_content.2 hwf).withProperty c.id hp hm
      hkeeps.wellFormed c.id
  have hfound : ((c.surroundings s).repo.nodes c.id).property?
      (storageName (c.surroundings s).known (plainKey key)) = some p := by
    rw [hrepo, Repository.withProperty, Repository.nodes_modifyNode]
    rw [show storageName (c.surroundings s).known (plainKey key) = p.name
      from hname]
    exact NodeState.property?_withProperty_self _ hp hm
  have hstart : c.Alone (c.surroundings s) p s := by
    refine ⟨rfl, by rw [hcache]; rfl, fun other slot h => ?_⟩
    rw [hcache] at h
    cases h
  have hlater := hstart.lookAll hnodes hkey hfound hearlier
  have hunknown : target ≠ .unknown := fun h => by
    rw [h] at htarget
    cases htarget
  exact ⟨hlater.getAs?_eq hnodes hkey hfound (by simp)
      (hkeeps.convert htarget hnumber).1,
    hlater.getAs?_eq hnodes hkey hfound hunknown
      (hkeeps.convert htarget hnumber).2⟩

/-- Three bytes in memory and a stream of one byte, set as one property and
read as a text before. -/
theorem bytes_and_stream_read_as_lengths :
    ∃ u, setMultiProperty 0 "b" [.binary ⟨0, .buffered [1, 2, 3]⟩,
        .binary ⟨1, .oneShot [4]⟩] Site.sampleState.world = (.ok (), u) ∧
      (Site.sample.map.getAs? "b" (.array .int) (Site.sample.lookAll
          ⟨.empty, none, u⟩ [.getAs "b" .string])).1 =
        .ok (some (.array [.value (.int 3), .value (.int 1)])) := by
  obtain ⟨⟨number, hnumber, hreads⟩, -⟩ :=
    binaries_read_as_lengths Site.sample .int rfl
  have hname : ∀ known, storageName known "b" = "b" := by
    intro known
    have hplain : splitPrefix? "b" = none := by decide +kernel
    have hescape : Name.escape "b" = "b" := by decide +kernel
    unfold storageName
    rw [hplain, hescape]
  obtain ⟨u, hrun, hu⟩ := hreads "b"
    [⟨0, .buffered [1, 2, 3]⟩, ⟨1, .oneShot [4]⟩] [[1, 2, 3], [4]] _
    Site.sampleState.world Repository.wellFormed_sample (.many _)
    (by decide) (by decide) (.cons (.inl rfl) (.cons (.inr rfl) .nil))
    ⟨by decide, by decide⟩
  have hint : ∀ content, number content =
      .int (Int64.ofNat content.length).toInt32 := fun content =>
    (Converted.value.inj (Option.some.inj (Except.ok.inj (congrArg Prod.fst
      (hnumber content Site.sampleState.world))))).symm
  obtain ⟨harray, -⟩ := hu ⟨.empty, none, u⟩ "b" [.getAs "b" .string] rfl rfl
    (by decide) (hname _) (by simp [Lookup.key])
  rw [List.map_cons, List.map_cons, hint, hint] at harray
  exact ⟨u, hrun, harray⟩

end Memory

end ContentProperties
