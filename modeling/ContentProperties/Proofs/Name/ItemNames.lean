/-
What an escaped name looks like: an item may have it, and every percent
sign in it begins an escape. The rules that depend on the place come
from the two ends of the recursion. A space can only stand at an end by
being its first or its last character, and both are told that they are.
A dot is escaped in a short name, and escaping never makes a name
shorter, so neither `.` nor `..` is the escape of anything.

Paths are escaped segment by segment. No escape holds a slash, so the
slashes of an escaped path are those of the path.
-/
import ContentProperties.Proofs.Name.Escaping
import ContentProperties.Proofs.Name.Paths

namespace ContentProperties.Name

open Text

-- ======================================================= legal names

/-- The digits of percent escapes. -/
def upperHexDigits : List Char :=
  ['0', '1', '2', '3', '4', '5', '6', '7', '8', '9', 'A', 'B', 'C', 'D', 'E',
    'F']

/-- A name that an item may have, with percent signs in escapes only. -/
structure IsItemName (name : List Char) : Prop where
  legal : ∀ c ∈ ['/', ':', '[', ']', '*', '|', '\t', '\r', '\n'], c ∉ name
  percent : ∀ after, '%' :: after <:+ name →
    ∃ high low rest, after = high :: low :: rest ∧
      high ∈ upperHexDigits ∧ low ∈ upperHexDigits
  first : name.head? ≠ some ' '
  last : name.getLast? ≠ some ' '
  notSelf : name ≠ ['.']
  notParent : name ≠ ['.', '.']

theorem hexUpper_mem_upperHexDigits (n : Nat) :
    hexUpper (n % 16) ∈ upperHexDigits := by
  have hall : ∀ d < 16, hexUpper d ∈ upperHexDigits := by decide
  exact hall _ (Nat.mod_lt _ (by decide))

theorem ne_of_mem_upperHexDigits {c : Char} (h : c ∈ upperHexDigits) :
    c ≠ '%' ∧ c ≠ ' ' ∧ c ≠ '.' := by
  refine ⟨?_, ?_, ?_⟩ <;> rintro rfl <;> exact absurd h (by decide)

-- ========================================================== the escapes

section Escapes

variable {short first : Bool} {cs : List Char}

/-- A character as it is written: an escape, or the character itself,
which is not the percent sign then. -/
theorem escapeFrom_cons_cases (short first : Bool) (c : Char)
    (rest : List Char) :
    (∃ high ∈ upperHexDigits, ∃ low ∈ upperHexDigits,
      escapeFrom short first (c :: rest) =
        '%' :: high :: low :: escapeFrom short false rest) ∨
    (mustEscape short (first || rest.isEmpty) c = false ∧
      escapeFrom short first (c :: rest) =
        c :: escapeFrom short false rest) := by
  by_cases h : mustEscape short (first || rest.isEmpty) c = true
  · refine .inl ⟨_, hexUpper_mem_upperHexDigits (c.toNat / 16), _,
      hexUpper_mem_upperHexDigits c.toNat, ?_⟩
    rw [escapeFrom, if_pos h]
    rfl
  · refine .inr ⟨by simpa using h, ?_⟩
    rw [escapeFrom, if_neg h]
    rfl

/-- A percent sign of an escaped name begins an escape. -/
theorem exists_digits_of_suffix {after : List Char}
    (h : '%' :: after <:+ escapeFrom short first cs) :
    ∃ high low rest, after = high :: low :: rest ∧
      high ∈ upperHexDigits ∧ low ∈ upperHexDigits := by
  induction cs generalizing first with
  | nil => simp [escapeFrom] at h
  | cons c rest ih =>
    rcases escapeFrom_cons_cases short first c rest with
      ⟨high, hhigh, low, hlow, heq⟩ | ⟨hplain, heq⟩
    · rw [heq] at h
      simp only [List.suffix_cons_iff, List.cons.injEq] at h
      rcases h with ⟨-, hafter⟩ | ⟨hpercent, -⟩ | ⟨hpercent, -⟩ | h
      · exact ⟨high, low, _, hafter, hhigh, hlow⟩
      · exact absurd hpercent.symm (ne_of_mem_upperHexDigits hhigh).1
      · exact absurd hpercent.symm (ne_of_mem_upperHexDigits hlow).1
      · exact ih h
    · rw [heq] at h
      simp only [List.suffix_cons_iff, List.cons.injEq] at h
      rcases h with ⟨hpercent, -⟩ | h
      · rw [← hpercent] at hplain
        exact absurd hplain (by simp [mustEscape, illegalChars])
      · exact ih h

theorem length_le_length_escapeFrom (short first : Bool) (cs : List Char) :
    cs.length ≤ (escapeFrom short first cs).length := by
  induction cs generalizing first with
  | nil => exact Nat.le_refl _
  | cons c rest ih =>
    have hrest := ih false
    rcases escapeFrom_cons_cases short first c rest with
      ⟨_, _, _, _, heq⟩ | ⟨-, heq⟩
    · rw [heq]
      simp only [List.length_cons]
      omega
    · rw [heq]
      simp only [List.length_cons]
      omega

-- ========================================================= the two ends

theorem head?_escapeFrom_ne_space :
    (escapeFrom short true cs).head? ≠ some ' ' := by
  cases cs with
  | nil => simp [escapeFrom]
  | cons c rest =>
    rcases escapeFrom_cons_cases short true c rest with
      ⟨_, _, _, _, heq⟩ | ⟨hplain, heq⟩
    · simp [heq]
    · rw [heq, List.head?_cons]
      intro hspace
      rw [Option.some.inj hspace] at hplain
      simp [mustEscape] at hplain

theorem getLast?_escapeFrom_ne_space :
    (escapeFrom short first cs).getLast? ≠ some ' ' := by
  induction cs generalizing first with
  | nil => simp [escapeFrom]
  | cons c rest ih =>
    cases rest with
    | nil =>
      rcases escapeFrom_cons_cases short first c [] with
        ⟨_, _, low, hlow, heq⟩ | ⟨hplain, heq⟩
      · have hlast := (ne_of_mem_upperHexDigits hlow).2.1
        rw [heq]
        simpa [escapeFrom] using hlast
      · rw [heq]
        intro hspace
        simp only [escapeFrom, List.getLast?_singleton, Option.some.injEq]
          at hspace
        rw [hspace] at hplain
        simp [mustEscape] at hplain
    | cons next more =>
      -- What follows is not empty, so its last character is the last one.
      have hne : escapeFrom short false (next :: more) ≠ [] := by
        intro hnil
        have hlen := length_le_length_escapeFrom short false (next :: more)
        rw [hnil] at hlen
        simp at hlen
      have hrest := @ih false
      rcases escapeFrom_cons_cases short first c (next :: more) with
        ⟨_, _, _, _, heq⟩ | ⟨-, heq⟩
      · rw [heq, List.getLast?_cons_cons, List.getLast?_cons_cons,
          List.getLast?_cons_of_ne_nil hne]
        exact hrest
      · rw [heq, List.getLast?_cons_of_ne_nil hne]
        exact hrest

-- ============================================================= dot names

/-- A short name is escaped with all its dots. -/
theorem dot_not_mem_escapeFrom : '.' ∉ escapeFrom true first cs := by
  induction cs generalizing first with
  | nil => exact List.not_mem_nil
  | cons c rest ih =>
    have hrest := @ih false
    rcases escapeFrom_cons_cases true first c rest with
      ⟨high, hhigh, low, hlow, heq⟩ | ⟨hplain, heq⟩
    · have hdigit : ∀ d ∈ upperHexDigits, '.' ≠ d :=
        fun d hd => (ne_of_mem_upperHexDigits hd).2.2.symm
      rw [heq]
      simp [hdigit high hhigh, hdigit low hlow, hrest]
    · have hc : '.' ≠ c := by
        rintro rfl
        simp [mustEscape] at hplain
      rw [heq]
      simp [hc, hrest]

/-- A name of one or two characters is no escape if it holds a dot. -/
theorem escapeChars_ne_of_short {name other : List Char}
    (hshort : other.length < 3) (hdot : '.' ∈ other) :
    escapeChars name ≠ other := by
  rintro rfl
  by_cases h : name.length < 3
  · have hmem : '.' ∉ escapeChars name := by
      rw [escapeChars, decide_eq_true h]
      exact dot_not_mem_escapeFrom
    exact hmem hdot
  · have hlen : name.length ≤ (escapeChars name).length :=
      length_le_length_escapeFrom _ _ name
    omega

end Escapes

/-- Every escaped name is one that an item may have. -/
theorem isItemName_escapeChars (name : List Char) :
    IsItemName (escapeChars name) where
  legal := by
    intro c hc
    have hpercent : c ≠ '%' := by
      rintro rfl
      exact absurd hc (by decide)
    exact not_mem_escapeFrom (List.mem_cons_of_mem _ hc) hpercent _ _ _
  percent _ h := exists_digits_of_suffix h
  first := head?_escapeFrom_ne_space
  last := getLast?_escapeFrom_ne_space
  notSelf := escapeChars_ne_of_short (by decide) (by decide)
  notParent := escapeChars_ne_of_short (by decide) (by decide)

-- ================================================================ paths

theorem slash_not_mem_escapeChars (name : List Char) :
    '/' ∉ escapeChars name :=
  (isItemName_escapeChars name).legal '/' (by decide)

/-- The slashes of an escaped path are those of the path. -/
theorem segments_escapePath (path : String) :
    segments (escapePath path).toList =
      (segments path.toList).map escapeChars := by
  rw [escapePath, String.toList_ofList]
  exact segments_mapSegments fun name _ => slash_not_mem_escapeChars name

/-- Unescaping a path reads each of its segments back. -/
theorem unescapeChars_joinSegments (names : List (List Char)) :
    unescapeChars (joinSegments (names.map escapeChars)) =
      joinSegments names := by
  induction names with
  | nil => rfl
  | cons name others ih =>
    cases others with
    | nil => exact unescapeChars_escapeChars name
    | cons second more =>
      have hslash : '/' ≠ '%' := by decide
      rw [List.map_cons, joinSegments_cons (by simp),
        joinSegments_cons (List.cons_ne_nil _ _),
        unescapeChars_escapeChars_append, unescapeChars_cons hslash, ih]

theorem unescape_escapePath (path : String) :
    unescape (escapePath path) = path := by
  rw [unescape, escapePath, String.toList_ofList, mapSegments,
    unescapeChars_joinSegments, joinSegments_segments, String.ofList_toList]

/-- Percent escaping loses nothing and ends at names that an item may
have; a path keeps its segments, each in its escaped form. -/
theorem escape_is_lossless_and_legal :
    (∀ name, unescape (escape name) = name ∧
      IsItemName (escape name).toList) ∧
    ∀ path, unescape (escapePath path) = path ∧
      (segments (escapePath path).toList).length =
        (segments path.toList).length ∧
      segments (escapePath path).toList =
        (segments path.toList).map escapeChars := by
  refine ⟨fun name => ⟨unescape_escape name, ?_⟩,
    fun path => ⟨unescape_escapePath path, ?_, segments_escapePath path⟩⟩
  · rw [escape, String.toList_ofList]
    exact isItemName_escapeChars name.toList
  · rw [segments_escapePath, List.length_map]

/-- A dot, a space at the end and a tab are escaped; the text of an
escape is escaped itself. -/
example : escapePath "./a b /%41\t" = "%2E/a b%20/%2541%09" := by
  decide +kernel

end ContentProperties.Name
