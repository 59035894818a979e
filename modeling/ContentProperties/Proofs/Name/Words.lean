/-
Paths over words. A word consists of letters, and neither encoding of
paths changes it: no letter is escaped, and a name of letters is a legal
one without marks. So of a path that leads over words only the last
segment is encoded, and what it is encoded to holds no slash and is the
last segment again.
-/
import ContentProperties.Proofs.Name.Encoding
import ContentProperties.Proofs.Name.ItemNames
import Mathlib.Data.List.TakeWhile

namespace ContentProperties.Name

open Text

-- ================================================================ words

/-- A name that consists of letters, of which it has one at least. -/
structure IsWord (name : String) : Prop where
  nonempty : name ≠ ""
  letters : ∀ c ∈ name.toList, c.isAlpha = true

instance (name : String) : Decidable (IsWord name) :=
  decidable_of_iff (name ≠ "" ∧ name.toList.all Char.isAlpha = true)
    ⟨fun h => ⟨h.1, List.all_eq_true.1 h.2⟩,
      fun h => ⟨h.1, List.all_eq_true.2 h.2⟩⟩

theorem IsWord.not_mem {name : String} (h : IsWord name) {c : Char}
    (hc : c.isAlpha = false) : c ∉ name.toList := by
  intro hmem
  rw [h.letters c hmem] at hc
  cases hc

/-- Where no character is in the list, none is escaped at any place. -/
theorem escapeFrom_of_not_escapable {cs : List Char}
    (h : ∀ c ∈ cs, c ∉ escapable) (short first : Bool) :
    escapeFrom short first cs = cs := by
  induction cs generalizing first with
  | nil => rfl
  | cons c rest ih =>
    have hc : ¬mustEscape short (first || rest.isEmpty) c = true := fun hmust =>
      h c List.mem_cons_self (mem_escapable_of_mustEscape hmust)
    rw [escapeFrom, if_neg hc,
      ih fun d hd => h d (List.mem_cons_of_mem _ hd), List.singleton_append]

/-- Escaping leaves a word as it is. -/
theorem IsWord.escapeChars_eq {name : String} (h : IsWord name) :
    escapeChars name.toList = name.toList := by
  have hall : (escapable.all fun c => !c.isAlpha) = true := by decide
  refine escapeFrom_of_not_escapable (fun c hc hmem => ?_) _ _
  have hother : c.isAlpha = false := by
    simpa using List.all_eq_true.1 hall c hmem
  exact h.not_mem hother hc

/-- A letter may begin a name. -/
theorem isNameStart_of_isAlpha {c : Char} (h : c.isAlpha = true) :
    isNameStart c = true := by
  have hcases : c.isUpper = true ∨ c.isLower = true := Bool.or_eq_true_iff.1 h
  unfold isNameStart
  rcases hcases with hupper | hlower
  · have hrange : (65 : UInt32) ≤ c.val ∧ c.val ≤ 90 :=
      of_decide_eq_true hupper
    rw [UInt32.le_iff_toNat_le, UInt32.le_iff_toNat_le] at hrange
    exact List.any_eq_true.2 ⟨(0x41, 0x5a), by decide, by simpa using hrange⟩
  · have hrange : (97 : UInt32) ≤ c.val ∧ c.val ≤ 122 :=
      (Bool.and_eq_true_iff.1 hlower).imp of_decide_eq_true of_decide_eq_true
    rw [UInt32.le_iff_toNat_le, UInt32.le_iff_toNat_le] at hrange
    exact List.any_eq_true.2 ⟨(0x61, 0x7a), by decide, by simpa using hrange⟩

/-- The older encoding leaves a word as it is. -/
theorem IsWord.encodeSegment_eq {name : String} (h : IsWord name) :
    encodeSegment name.toList = name.toList := by
  have hbracket : ∀ c ∈ name.toList, (c != '[') = true := by
    intro c hc
    rw [bne_iff_ne]
    rintro rfl
    exact h.not_mem (by decide) hc
  have hlooks : ¬HoldsLookalike name.toList := by
    rintro ⟨a, b, c, d, -, hpart⟩
    exact h.not_mem (by decide) (hpart.subset List.mem_cons_self)
  have hlegal : isLegalName name.toList = true := by
    obtain ⟨c, rest, hname⟩ := List.exists_cons_of_ne_nil
      (fun hnil => h.nonempty (String.toList_eq_nil_iff.1 hnil))
    have hstart : ∀ d ∈ c :: rest, isNameStart d = true := by
      intro d hd
      rw [← hname] at hd
      exact isNameStart_of_isAlpha (h.letters d hd)
    rw [hname, isLegalName, hstart c List.mem_cons_self, Bool.true_and,
      List.all_eq_true]
    intro d hd
    rw [isNameChar, hstart d hd, Bool.true_or]
  rw [encodeSegment, List.takeWhile_eq_self_iff.2 hbracket,
    List.dropWhile_eq_nil_iff.2 hbracket, List.append_nil,
    encodeChars_eq_encodeFrom, encodeFrom_eq_self_of_isLegalName hlegal hlooks]

-- ================================================= the older encoding

/-- Encoding brings no slash into a segment. -/
theorem slash_not_mem_encodeSegment {name : List Char} (h : '/' ∉ name) :
    '/' ∉ encodeSegment name := by
  have hillegal : isNameChar '/' = false := by decide
  have hindex : '/' ∉ name.dropWhile (· != '[') := fun hmem =>
    h ((List.dropWhile_subset _) hmem)
  rw [encodeSegment, List.mem_append, not_or]
  refine ⟨fun hmem => ?_, hindex⟩
  rw [isNameChar_of_mem_encodeChars _ _ hmem] at hillegal
  cases hillegal

/-- The older encoded form of a name without slashes. -/
def encodeLast (name : String) : String :=
  String.ofList (encodeSegment name.toList)

-- ================================================================ paths

/-- The path that leads over names to a last one. -/
def pathTo (names : List String) (last : String) : String :=
  String.ofList (joinSegments (names.map String.toList ++ [last.toList]))

example : pathTo ["a", "b"] "c:d" = "a/b/c:d" := by decide

section Paths

variable {names : List String} {last : String}

/-- A path is split into the names it was made of. -/
theorem segments_pathTo (hnames : ∀ name ∈ names, IsWord name)
    (hlast : '/' ∉ last.toList) :
    segments (pathTo names last).toList =
      names.map String.toList ++ [last.toList] := by
  rw [pathTo, String.toList_ofList]
  refine segments_joinSegments (by simp) fun segment hsegment => ?_
  rcases List.mem_append.1 hsegment with h | h
  · obtain ⟨name, hname, rfl⟩ := List.mem_map.1 h
    exact (hnames name hname).not_mem (by decide)
  · rwa [List.mem_singleton.1 h]

/-- A codec of segments that leaves words as they are encodes the last
segment only. -/
theorem segments_mapSegments_pathTo {f : List Char → List Char}
    (hnames : ∀ name ∈ names, IsWord name) (hlast : '/' ∉ last.toList)
    (hword : ∀ name, IsWord name → f name.toList = name.toList)
    (hslash : '/' ∉ f last.toList) :
    segments (mapSegments f (pathTo names last).toList) =
      names.map String.toList ++ [f last.toList] := by
  have hwords : (names.map String.toList).map f = names.map String.toList := by
    rw [List.map_map]
    exact List.map_congr_left fun name hname => hword name (hnames name hname)
  have hsegments := segments_pathTo hnames hlast
  rw [segments_mapSegments, hsegments, List.map_append, hwords]
  · rfl
  · intro segment hsegment
    rw [hsegments] at hsegment
    rcases List.mem_append.1 hsegment with h | h
    · obtain ⟨name, hname, rfl⟩ := List.mem_map.1 h
      rw [hword name (hnames name hname)]
      exact (hnames name hname).not_mem (by decide)
    · rwa [List.mem_singleton.1 h]

theorem segments_escapePath_pathTo (hnames : ∀ name ∈ names, IsWord name)
    (hlast : '/' ∉ last.toList) :
    segments (escapePath (pathTo names last)).toList =
      names.map String.toList ++ [(escape last).toList] := by
  rw [escapePath, String.toList_ofList, escape, String.toList_ofList]
  exact segments_mapSegments_pathTo hnames hlast
    (fun _ h => h.escapeChars_eq) (slash_not_mem_escapeChars _)

theorem segments_encodePath_pathTo (hnames : ∀ name ∈ names, IsWord name)
    (hlast : '/' ∉ last.toList) :
    segments (encodePath (pathTo names last)).toList =
      names.map String.toList ++ [(encodeLast last).toList] := by
  rw [encodePath, String.toList_ofList, encodeLast, String.toList_ofList]
  exact segments_mapSegments_pathTo hnames hlast
    (fun _ h => h.encodeSegment_eq) (slash_not_mem_encodeSegment hlast)

end Paths

end ContentProperties.Name
