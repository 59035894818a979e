/-
The older encoding of paths. Each segment is a name with an index behind
it, from the first bracket on; names are encoded, indexes are kept as
they are. An encoded path has the segments of the path with their
indexes, and decoding reads the path back exactly if it reads each name
back and leaves each index alone.

# Why losses do not cancel

The encoded path is decoded as a whole, and what a mark in an index is
decoded to may be a slash, so what comes out cannot be cut into segments
again. But no mark lies across a slash or a bracket, so decoding works
piece by piece (`decodeChars_append_cons`). And it loses in one direction
only: no name or index gains a character above U+EFFFF or an underscore.
So if the whole has as many of them as before, every piece has
(`countP_eq_of_mapSegments_eq`).
-/
import ContentProperties.Proofs.Name.Encoding
import ContentProperties.Proofs.Name.Words
import Mathlib.Algebra.Order.BigOperators.Group.List
import Mathlib.Algebra.Order.Ring.Nat

namespace ContentProperties.Name

-- =============================================================== pieces

/-- A mark that starts before a character it cannot hold ends before
it. -/
theorem IsMark.prefix_append_iff {w xs ys : List Char} {c : Char}
    (hw : IsMark w) (hc : c ∈ escapable) :
    w <+: xs ++ c :: ys ↔ w <+: xs := by
  constructor
  · intro h
    rcases List.prefix_or_prefix_of_prefix h (List.prefix_append xs (c :: ys))
      with hfront | ⟨t, rfl⟩
    · exact hfront
    · -- The mark is longer than what stands before the character.
      cases t with
      | nil => simp
      | cons d t =>
        rw [List.prefix_append_right_inj, List.cons_prefix_cons] at h
        obtain ⟨rfl, -⟩ := h
        exact absurd hc (hw.not_mem_escapable (by simp))
  · exact fun h => h.trans (List.prefix_append ..)

/-- Decoding works apart on what stands before and behind a character
that no mark can hold. -/
theorem decodeChars_append_cons {c : Char} (hc : c ∈ escapable)
    (xs ys : List Char) :
    decodeChars (xs ++ c :: ys) = decodeChars xs ++ c :: decodeChars ys := by
  induction xs using mark_induction with
  | nil =>
    refine decodeChars_cons_of_no_front fun w hw hfront => ?_
    rw [← List.nil_append (c :: ys), hw.prefix_append_iff hc] at hfront
    obtain ⟨rest, rfl⟩ := hw.exists_cons
    simp at hfront
  | mark a b c' d decoded rest h ih =>
    simp only [List.cons_append]
    rw [decodeChars_mark h, decodeChars_mark h, ih, List.cons_append]
  | pass x rest hfront ih =>
    have hwhole : ∀ w, IsMark w → ¬w <+: x :: (rest ++ c :: ys) := by
      intro w hw h
      rw [← List.cons_append, hw.prefix_append_iff hc] at h
      exact hfront w hw h
    rw [List.cons_append, decodeChars_cons_of_no_front hwhole, ih,
      decodeChars_cons_of_no_front hfront, List.cons_append]

theorem decodeChars_joinSegments (names : List (List Char)) :
    decodeChars (joinSegments names) =
      joinSegments (names.map decodeChars) := by
  induction names with
  | nil => rfl
  | cons name others ih =>
    cases others with
    | nil => rfl
    | cons second more =>
      rw [joinSegments_cons (List.cons_ne_nil _ _),
        decodeChars_append_cons (by decide), ih]
      rfl

-- ============================================================== segments

/-- The name of a segment: what stands before its first bracket. -/
def namePart (segment : List Char) : List Char :=
  segment.takeWhile (· != '[')

/-- The index of a segment, from its first bracket on. -/
def indexPart (segment : List Char) : List Char :=
  segment.dropWhile (· != '[')

section Segments

variable (segment : List Char)

theorem namePart_append_indexPart :
    namePart segment ++ indexPart segment = segment :=
  List.takeWhile_append_dropWhile

/-- An index is empty or starts with a bracket. -/
theorem indexPart_cases :
    indexPart segment = [] ∨ ∃ rest, indexPart segment = '[' :: rest := by
  rw [indexPart]
  cases h : segment.dropWhile (· != '[') with
  | nil => exact .inl rfl
  | cons c rest =>
    have hc := List.head?_dropWhile_not (· != '[') segment
    rw [h] at hc
    refine .inr ⟨rest, ?_⟩
    simpa using hc

theorem indexPart_append {name index : List Char} (hname : '[' ∉ name)
    (hindex : index = [] ∨ ∃ rest, index = '[' :: rest) :
    namePart (name ++ index) = name ∧ indexPart (name ++ index) = index := by
  have hall : ∀ c ∈ name, (c != '[') = true := by
    intro c hc
    rw [bne_iff_ne]
    rintro rfl
    exact hname hc
  rw [namePart, indexPart, List.takeWhile_append_of_pos hall,
    List.dropWhile_append_of_pos hall]
  rcases hindex with rfl | ⟨rest, rfl⟩ <;> simp

/-- An encoded segment has the encoded name, and the index as it was. -/
theorem parts_encodeSegment :
    namePart (encodeSegment segment) = encodeChars (namePart segment) ∧
      indexPart (encodeSegment segment) = indexPart segment := by
  have hbracket : '[' ∉ encodeChars (namePart segment) := by
    have hillegal : isNameChar '[' = false := by decide
    intro hmem
    rw [isNameChar_of_mem_encodeChars _ _ hmem] at hillegal
    cases hillegal
  exact indexPart_append hbracket (indexPart_cases segment)

/-- The name and the index of a segment are decoded apart. -/
theorem decodeChars_encodeSegment :
    decodeChars (encodeSegment segment) =
      decodeChars (encodeChars (namePart segment)) ++
        decodeChars (indexPart segment) := by
  show decodeChars (encodeChars (namePart segment) ++ indexPart segment) = _
  rcases indexPart_cases segment with h | ⟨rest, h⟩
  · rw [h, List.append_nil]
    exact (List.append_nil _).symm
  · rw [h, decodeChars_append_cons (by decide),
      ← List.nil_append ('[' :: rest), decodeChars_append_cons (by decide)]
    rfl

/-- No segment gains characters above U+EFFFF, and its name has none
left. -/
theorem countP_isBeyond_decode_encodeSegment :
    (decodeChars (encodeSegment segment)).countP isBeyond =
      (indexPart segment).countP isBeyond := by
  rw [decodeChars_encodeSegment, List.countP_append,
    countP_isBeyond_decodeChars, countP_isBeyond_decodeChars,
    countP_isBeyond_encodeChars, Nat.zero_add]

theorem decodeChars_encodeSegment_of_name
    (h : ∀ c ∈ namePart segment, c.toNat ≤ 0xEFFFF) :
    decodeChars (encodeSegment segment) =
      namePart segment ++ decodeChars (indexPart segment) := by
  rw [decodeChars_encodeSegment, decodeChars_encodeChars_iff.2 h]

/-- A segment that keeps its characters above U+EFFFF has none in its
name. -/
theorem toNat_le_of_countP_isBeyond
    (h : (decodeChars (encodeSegment segment)).countP isBeyond =
      segment.countP isBeyond) :
    ∀ c ∈ namePart segment, c.toNat ≤ 0xEFFFF := by
  rw [countP_isBeyond_decode_encodeSegment] at h
  conv_rhs at h => rw [← namePart_append_indexPart segment,
    List.countP_append]
  exact countP_isBeyond_eq_zero_iff.1 (by omega)

/-- A segment whose name comes back loses underscores with every change
of its index. -/
theorem count_decode_encodeSegment
    (h : ∀ c ∈ namePart segment, c.toNat ≤ 0xEFFFF) :
    (decodeChars (encodeSegment segment)).count '_' ≤ segment.count '_' ∧
      ((decodeChars (encodeSegment segment)).count '_' = segment.count '_' →
        decodeChars (indexPart segment) = indexPart segment) := by
  have hcount : segment.count '_' =
      (namePart segment).count '_' + (indexPart segment).count '_' := by
    rw [← List.count_append, namePart_append_indexPart]
  have hle := count_decodeChars_le (indexPart segment)
  rw [decodeChars_encodeSegment_of_name segment h, List.count_append, hcount]
  exact ⟨by omega, fun heq => decodeChars_eq_self_of_count (by omega)⟩

end Segments

-- ================================================================ paths

section Counts

variable {p : Char → Bool}

theorem countP_joinSegments (hslash : p '/' = false)
    (names : List (List Char)) :
    (joinSegments names).countP p = (names.map (List.countP p)).sum := by
  induction names with
  | nil => rfl
  | cons name others ih =>
    cases others with
    | nil => simp [joinSegments]
    | cons second more =>
      rw [joinSegments_cons (List.cons_ne_nil _ _), List.countP_append,
        List.countP_cons, ih, hslash, List.map_cons, List.sum_cons]
      simp

/-- If no segment gains characters of a kind and the path ends up as it
was, then no segment loses any. -/
theorem countP_eq_of_mapSegments_eq {f : List Char → List Char}
    {path : List Char} (hslash : p '/' = false)
    (hle : ∀ segment ∈ segments path, (f segment).countP p ≤ segment.countP p)
    (hsame : mapSegments f path = path) :
    ∀ segment ∈ segments path, (f segment).countP p = segment.countP p := by
  have hsum : ((segments path).map fun segment => (f segment).countP p).sum =
      ((segments path).map (List.countP p)).sum := by
    have h := congrArg (List.countP p) hsame
    rw [mapSegments, countP_joinSegments hslash, List.map_map] at h
    rw [← countP_joinSegments hslash, joinSegments_segments]
    exact h
  intro segment hmem
  refine Nat.le_antisymm (hle segment hmem) (Nat.le_of_not_lt fun hlt => ?_)
  exact absurd hsum
    (Nat.ne_of_lt (List.sum_lt_sum _ _ hle ⟨segment, hmem, hlt⟩))

end Counts

theorem mapSegments_eq_self {f : List Char → List Char} {path : List Char}
    (h : ∀ segment ∈ segments path, f segment = segment) :
    mapSegments f path = path := by
  have hmap : (segments path).map f = segments path := by
    conv_rhs => rw [← List.map_id (segments path)]
    exact List.map_congr_left h
  rw [mapSegments, hmap, joinSegments_segments]

/-- An encoded path is decoded segment by segment. -/
theorem decode_encodePath (path : String) :
    (decode (encodePath path)).toList =
      mapSegments (fun segment => decodeChars (encodeSegment segment))
        path.toList := by
  rw [decode, encodePath, String.toList_ofList, String.toList_ofList,
    mapSegments, decodeChars_joinSegments, List.map_map]
  rfl

/-- Nothing that one segment loses is made up for by another. -/
theorem decode_encodePath_iff {path : String} :
    decode (encodePath path) = path ↔ ∀ segment ∈ segments path.toList,
      (∀ c ∈ namePart segment, c.toNat ≤ 0xEFFFF) ∧
        decodeChars (indexPart segment) = indexPart segment := by
  rw [← String.toList_inj, decode_encodePath]
  constructor
  · intro hsame
    -- Names first: until they are known to come back, their escapes could
    -- bring underscores in.
    have hnames : ∀ segment ∈ segments path.toList,
        ∀ c ∈ namePart segment, c.toNat ≤ 0xEFFFF := by
      intro segment hmem
      refine toNat_le_of_countP_isBeyond segment
        (countP_eq_of_mapSegments_eq (by decide) ?_ hsame segment hmem)
      intro other _
      rw [countP_isBeyond_decode_encodeSegment]
      exact (List.dropWhile_sublist _).countP_le
    intro segment hmem
    refine ⟨hnames segment hmem, (count_decode_encodeSegment segment
      (hnames segment hmem)).2 ?_⟩
    exact countP_eq_of_mapSegments_eq (p := (· == '_')) (by decide)
      (fun other hother =>
        (count_decode_encodeSegment other (hnames other hother)).1)
      hsame segment hmem
  · intro h
    refine mapSegments_eq_self fun segment hmem => ?_
    obtain ⟨hname, hindex⟩ := h segment hmem
    rw [decodeChars_encodeSegment_of_name segment hname, hindex,
      namePart_append_indexPart]

theorem segments_encodePath (path : String) :
    segments (encodePath path).toList =
      (segments path.toList).map encodeSegment := by
  rw [encodePath, String.toList_ofList]
  exact segments_mapSegments fun segment hmem =>
    slash_not_mem_encodeSegment (slash_not_mem_of_mem_segments hmem)

/-- Decoding an encoded path yields the path exactly if no name in it
holds a character above U+EFFFF and decoding leaves every index alone.
An encoded path has as many segments as the path, each with the encoded
name and with the index as it was. -/
theorem encodePath_is_read_back_and_keeps_indexes (path : String) :
    (decode (encodePath path) = path ↔ ∀ segment ∈ segments path.toList,
      (∀ c ∈ namePart segment, c.toNat ≤ 0xEFFFF) ∧
        decodeChars (indexPart segment) = indexPart segment) ∧
    (segments (encodePath path).toList).length =
      (segments path.toList).length ∧
    (segments (encodePath path).toList).map indexPart =
      (segments path.toList).map indexPart ∧
    (segments (encodePath path).toList).map namePart =
      (segments path.toList).map fun segment =>
        encodeChars (namePart segment) := by
  refine ⟨decode_encodePath_iff, ?_, ?_, ?_⟩
  · rw [segments_encodePath, List.length_map]
  · rw [segments_encodePath, List.map_map]
    exact List.map_congr_left fun segment _ => (parts_encodeSegment segment).2
  · rw [segments_encodePath, List.map_map]
    exact List.map_congr_left fun segment _ => (parts_encodeSegment segment).1

/-- A mark in an index is decoded, here to a slash, so that the path does
not come back though every name does. -/
example : encodePath "a b[_x002f_]/c" = "a_x0020_b[_x002f_]/c" ∧
    decode "a_x0020_b[_x002f_]/c" = "a b[/]/c" := by
  decide +kernel

end ContentProperties.Name
