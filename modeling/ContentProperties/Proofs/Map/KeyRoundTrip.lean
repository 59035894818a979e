/-
Which keys are the keys of their storage names. A key is escaped into a
storage name, and a storage name is decoded into a key by another codec
where that changes it. So the way there and back ends at the key exactly
if there is nothing to decode: older names are not decoded at all, or
the key holds no mark of theirs.

The one half is the round trip of percent escaping, for a registered
prefix is free of percent signs. The other asks that a decoded mark is
never made up for by the escapes around it, and the underscores show
that: escaping keeps their number and decoding a mark lowers it.
-/
import ContentProperties.Proofs.Map.Reading
import ContentProperties.Proofs.Name.Marks

namespace ContentProperties

open Name

namespace PropertyMap

section Names

variable {known : List String} (key : String)

theorem unescapeChars_append_of_not_mem {xs : List Char} (h : '%' ∉ xs)
    (ys : List Char) : unescapeChars (xs ++ ys) = xs ++ unescapeChars ys := by
  induction xs with
  | nil => rfl
  | cons x xs ih =>
    simp only [List.mem_cons, not_or] at h
    rw [List.cons_append, unescapeChars_cons (Ne.symm h.1), ih h.2,
      List.cons_append]

/-- Unescaping a storage name yields its key, if no registered prefix
could be taken for an escape. -/
theorem unescape_storageName (hknown : ∀ front ∈ known, '%' ∉ front.toList) :
    unescape (storageName known key) = key := by
  unfold storageName
  cases hsplit : splitPrefix? key with
  | none => exact unescape_escape key
  | some parts =>
      obtain ⟨front, local_⟩ := parts
      obtain ⟨hkey, -⟩ := of_splitPrefix? hsplit
      dsimp only
      by_cases hregistered : known.contains front = true
      · have hfront := hknown front (List.contains_iff_mem.1 hregistered)
        have hcolon : '%' ∉ (front ++ ":").toList := by
          simp [String.toList_append, hfront]
        rw [if_pos hregistered, unescape, String.toList_append,
          unescapeChars_append_of_not_mem hcolon, String.ofList_append,
          String.ofList_toList, ← unescape, unescape_escape, hkey]
      · rw [if_neg hregistered]
        exact unescape_escape key

/-- A storage name holds a mark exactly if the key does. -/
theorem holdsMark_storageName :
    HoldsMark (storageName known key).toList ↔ HoldsMark key.toList := by
  have hcolon : ∀ front rest : String, HoldsMark (front ++ ":" ++ rest).toList ↔
      HoldsMark front.toList ∨ HoldsMark rest.toList := by
    intro front rest
    rw [String.toList_append, String.toList_append, List.append_assoc]
    exact holdsMark_append_cons_iff (by decide)
  rcases storageName_cases known key with hname | ⟨front, local_, rfl, -, hname⟩
  · rw [hname, holdsMark_escape]
  · rw [hname, hcolon, hcolon, holdsMark_escape]

/-- Escaping keeps the number of underscores. -/
theorem count_storageName :
    (storageName known key).toList.count '_' = key.toList.count '_' := by
  rcases storageName_cases known key with hname | ⟨front, local_, rfl, -, hname⟩
  · rw [hname, count_escape]
  · simp only [hname, String.toList_append, List.count_append, count_escape]

/-- A key is the key of its storage name exactly if older names are not
decoded or decoding the key itself changes nothing. -/
theorem roundTrips_iff (hknown : ∀ front ∈ known, '%' ∉ front.toList)
    (legacy : Bool) :
    RoundTrips legacy known key ↔ legacy = false ∨ decode key = key := by
  have hback := unescape_storageName key hknown
  have hsame : decode (storageName known key) = storageName known key ↔
      decode key = key := by
    rw [decode_eq_self_iff, decode_eq_self_iff, holdsMark_storageName]
  unfold RoundTrips decodeName
  cases legacy with
  | false => simp [hback]
  | true =>
    by_cases hname : decode (storageName known key) = storageName known key
    · simp [hname, hback, hsame.1 hname]
    · have hkey : decode key ≠ key := fun h => hname (hsame.2 h)
      -- Decoding the name has taken underscores away that the key has.
      have hlost : decode (storageName known key) ≠ key := by
        intro h
        have hlt := count_decode_lt hname
        rw [h, count_storageName] at hlt
        exact Nat.lt_irrefl _ hlt
      simp [hname, hkey, hlost]

end Names

-- ========================================================= over a node

section Nodes

variable {σ : Type} {m : PropertyMap σ} {s : MapState σ} {known : List String}

/-- A key is escaped by the prefixes that are registered. -/
theorem escapeKey_of_known
    (h : (m.provider.namespacePrefixes m.node.session s).1 = .ok known)
    (key : String) : (m.escapeKey key s).1 = .ok (storageName known key) := by
  unfold escapeKey storageName
  cases splitPrefix? key with
  | none => rfl
  | some parts =>
      obtain ⟨front, local_⟩ := parts
      rcases hasked : m.provider.namespacePrefixes m.node.session s with ⟨r, t⟩
      rw [hasked] at h
      cases h
      have hregistered : m.provider.isRegistered m.node.session front s =
          (.ok (known.contains front), t) := by
        unfold Provider.isRegistered
        rw [run_bind_of_ok hasked]
        rfl
      dsimp only
      rw [run_bind_of_ok hregistered]
      split <;> rfl

/-- Escaping a key and decoding the name ends at the key exactly if older
names are not decoded or decoding the key itself changes nothing; and no
other key has the name, at whatever time it is escaped. No registered
prefix may hold a percent sign. -/
theorem decodeName_escapeKey
    (hasked : (m.provider.namespacePrefixes m.node.session s).1 = .ok known)
    (hknown : ∀ front ∈ known, '%' ∉ front.toList) (key : String) :
    ∃ name, (m.escapeKey key s).1 = .ok name ∧
      (decodeName m.provider.options.legacyPathEncoding name = key ↔
        m.provider.options.legacyPathEncoding = false ∨
          Name.decode key = key) ∧
      ∀ other t,
        (m.provider.namespacePrefixes m.node.session t).1 = .ok known →
        (m.escapeKey other t).1 = .ok name → other = key := by
  refine ⟨storageName known key, escapeKey_of_known hasked key,
    roundTrips_iff key hknown _, fun other t ht hname => ?_⟩
  rw [escapeKey_of_known ht] at hname
  exact storageName_injective known (Except.ok.inj hname)

/-- With a prefix, a percent sign and an older writer's mark in it, a key
is not the key of its name. -/
theorem decodeName_escapeKey_of_marked :
    let m := Memory.Site.sample.map
    let s := Memory.Site.sampleState
    let known := Memory.SessionState.new.prefixes
    (m.provider.namespacePrefixes m.node.session s).1 = .ok known ∧
    (∀ front ∈ known, '%' ∉ front.toList) ∧
    ∃ name, (m.escapeKey "jcr:5%_x0020_" s).1 = .ok name ∧
      decodeName true name ≠ "jcr:5%_x0020_" := by
  have hknown : ∀ front ∈ Memory.SessionState.new.prefixes,
      '%' ∉ front.toList := by
    decide +kernel
  obtain ⟨name, hname, hback, -⟩ := decodeName_escapeKey
    (m := Memory.Site.sample.map) (s := Memory.Site.sampleState) rfl hknown
    "jcr:5%_x0020_"
  refine ⟨rfl, hknown, name, hname, fun h => ?_⟩
  rcases hback.1 h with hlegacy | hdecode
  · cases hlegacy
  · revert hdecode
    decide +kernel

end Nodes

end PropertyMap

end ContentProperties
