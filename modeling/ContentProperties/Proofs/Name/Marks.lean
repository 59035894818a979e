/-
Where decoding changes a name. An escape of the ISO 9075 encoding is
read back if its four digits number a character; a name that holds no
such mark is read as it stands.

# Why decoding shows

Decoding a mark takes two underscores away and puts at most one back, so
every name that holds a mark loses underscores (`count_decode_lt`).
Percent escaping neither adds underscores nor breaks a mark, for a mark
consists of characters that are never escaped (`holdsMark_escape`). Hence
no percent escape can make up for what the decoding of a mark changed.
-/
import ContentProperties.Name.Iso9075
import ContentProperties.Proofs.Name.Escaping

namespace ContentProperties.Name

open Text

-- ============================================================== marks

/-- An escape that is read back, from its first underscore to its last. -/
def IsMark (w : List Char) : Prop :=
  ∃ a b c d, w = ['_', 'x', a, b, c, d, '_'] ∧
    (markedChar? a b c d).isSome

/-- Somewhere in the name there is an escape that is read back. -/
def HoldsMark (name : List Char) : Prop := ∃ w, IsMark w ∧ w <:+: name

theorem holdsMark_of_markedChar? {a b c d decoded : Char}
    (h : markedChar? a b c d = some decoded) (rest : List Char) :
    HoldsMark ('_' :: 'x' :: a :: b :: c :: d :: '_' :: rest) :=
  ⟨['_', 'x', a, b, c, d, '_'], ⟨a, b, c, d, rfl, by rw [h]; rfl⟩,
    List.IsPrefix.isInfix ⟨rest, rfl⟩⟩

/-- A mark behind the first character, or one that starts with it. -/
theorem holdsMark_cons_iff {c : Char} {rest : List Char} :
    HoldsMark (c :: rest) ↔
      (∃ w, IsMark w ∧ w <+: c :: rest) ∨ HoldsMark rest := by
  simp only [HoldsMark, List.infix_cons_iff, and_or_left, exists_or]

/-- What is read as the escape of a character: four digits, which number
it. -/
theorem of_markedChar? {a b c d decoded : Char}
    (h : markedChar? a b c d = some decoded) :
    ∃ i j k l, hexDigit? a = some i ∧ hexDigit? b = some j ∧
      hexDigit? c = some k ∧ hexDigit? d = some l ∧
      charOfNat? (16 * (16 * (16 * i + j) + k) + l) = some decoded := by
  simp only [markedChar?, hexValue?, List.foldl_cons, List.foldl_nil,
    Option.bind_eq_bind, Option.bind_eq_some_iff, Option.pure_def,
    Option.some.injEq] at h
  obtain ⟨_, ⟨_, ⟨_, ⟨_, ⟨_, rfl, i, ha, rfl⟩, j, hb, rfl⟩, k, hc, rfl⟩,
    l, hd, rfl⟩, hchar⟩ := h
  rw [Nat.mul_zero, Nat.zero_add] at hchar
  exact ⟨i, j, k, l, ha, hb, hc, hd, hchar⟩

/-- The digits of a mark are hexadecimal. -/
theorem isHexDigit_of_markedChar? {a b c d : Char}
    (h : (markedChar? a b c d).isSome) :
    ∀ x ∈ [a, b, c, d], isHexDigit x := by
  obtain ⟨decoded, h⟩ := Option.isSome_iff_exists.1 h
  obtain ⟨_, _, _, _, ha, hb, hc, hd, -⟩ := of_markedChar? h
  simp [isHexDigit, ha, hb, hc, hd]

/-- A mark starts with an underscore. -/
theorem IsMark.exists_cons {w : List Char} (h : IsMark w) :
    ∃ rest, w = '_' :: rest := by
  obtain ⟨a, b, c, d, rfl, -⟩ := h
  exact ⟨_, rfl⟩

/-- No character of a mark is ever escaped. -/
theorem IsMark.not_mem_escapable {w : List Char} (h : IsMark w) {x : Char}
    (hx : x ∈ w) : x ∉ escapable := by
  obtain ⟨a, b, c, d, rfl, hmarked⟩ := h
  have hall : escapable.all (fun y =>
      y ≠ '_' ∧ y ≠ 'x' ∧ isHexDigit y = false) = true := by decide
  have hplain : ∀ y ∈ escapable, y ≠ '_' ∧ y ≠ 'x' ∧ isHexDigit y = false := by
    simpa using hall
  intro hescapable
  obtain ⟨hunderscore, hletter, hdigit⟩ := hplain x hescapable
  have hdigits : x ∉ [a, b, c, d] := by
    intro hmem
    rw [isHexDigit_of_markedChar? hmarked x hmem] at hdigit
    cases hdigit
  simp only [List.mem_cons, List.not_mem_nil, or_false] at hx hdigits
  grind

-- =========================================================== decoding

theorem not_holdsMark_nil : ¬HoldsMark [] := by
  rintro ⟨w, hw, hpart⟩
  obtain ⟨rest, rfl⟩ := hw.exists_cons
  simp at hpart

/-- A name whose first character does not start a mark holds those of the
rest. -/
theorem holdsMark_cons_of_no_front {c : Char} {rest : List Char}
    (h : ∀ w, IsMark w → ¬w <+: c :: rest) :
    HoldsMark (c :: rest) ↔ HoldsMark rest := by
  rw [holdsMark_cons_iff]
  constructor
  · rintro (⟨w, hw, hprefix⟩ | hrest)
    · exact absurd hprefix (h w hw)
    · exact hrest
  · exact .inr

/-- A mark is read as its character. -/
theorem decodeChars_mark {a b c d decoded : Char}
    (h : markedChar? a b c d = some decoded) (rest : List Char) :
    decodeChars ('_' :: 'x' :: a :: b :: c :: d :: '_' :: rest) =
      decoded :: decodeChars rest := by
  rw [decodeChars, h]

/-- Where no mark starts, decoding passes a character by. -/
theorem decodeChars_cons_of_no_front {c : Char} {rest : List Char}
    (h : ∀ w, IsMark w → ¬w <+: c :: rest) :
    decodeChars (c :: rest) = c :: decodeChars rest := by
  generalize hcs : c :: rest = cs
  cases cs using decodeChars.fun_cases with
  | case1 => cases hcs
  | case2 a b c' d after decoded hmarked =>
    obtain ⟨rfl, rfl⟩ := List.cons.inj hcs
    exact absurd ⟨after, rfl⟩
      (h _ ⟨a, b, c', d, rfl, by rw [hmarked]; rfl⟩)
  | case3 a b c' d after hmarked =>
    obtain ⟨rfl, rfl⟩ := List.cons.inj hcs
    rw [decodeChars, hmarked]
  | case4 c' rest' hother =>
    obtain ⟨rfl, rfl⟩ := List.cons.inj hcs
    rw [decodeChars]
    exact hother

/-- Induction along a name as decoding goes: over a whole mark at once,
and over one character where no mark starts. -/
@[elab_as_elim]
theorem mark_induction {motive : List Char → Prop} (nil : motive [])
    (mark : ∀ a b c d decoded rest, markedChar? a b c d = some decoded →
      motive rest → motive ('_' :: 'x' :: a :: b :: c :: d :: '_' :: rest))
    (pass : ∀ c rest, (∀ w, IsMark w → ¬w <+: c :: rest) → motive rest →
      motive (c :: rest))
    (cs : List Char) : motive cs := by
  fun_induction decodeChars cs with
  | case1 => exact nil
  | case2 a b c d rest decoded h ih => exact mark a b c d decoded rest h ih
  | case3 a b c d rest h ih =>
    refine pass _ _ ?_ ih
    rintro w ⟨a', b', c', d', rfl, hmarked⟩ hprefix
    simp only [List.cons_prefix_cons] at hprefix
    obtain ⟨-, -, rfl, rfl, rfl, rfl, -⟩ := hprefix
    rw [h] at hmarked
    cases hmarked
  | case4 c rest h ih =>
    refine pass _ _ ?_ ih
    rintro w ⟨a, b, c', d, rfl, -⟩ ⟨after, hafter⟩
    cases hafter
    exact h a b c' d after rfl rfl

/-- Decoding takes underscores out of a name that holds a mark, and
leaves any other name as it stands. -/
theorem decodeChars_cases (cs : List Char) :
    (¬HoldsMark cs ∧ decodeChars cs = cs) ∨
      (HoldsMark cs ∧ (decodeChars cs).count '_' < cs.count '_') := by
  induction cs using mark_induction with
  | nil => exact .inl ⟨not_holdsMark_nil, rfl⟩
  | mark a b c d decoded rest h ih =>
    refine .inr ⟨holdsMark_of_markedChar? h rest, ?_⟩
    have hrest : (decodeChars rest).count '_' ≤ rest.count '_' := by
      rcases ih with ⟨-, heq⟩ | ⟨-, hlt⟩
      · exact Nat.le_of_eq (by rw [heq])
      · exact Nat.le_of_lt hlt
    -- Two underscores go, and one comes back at the most.
    rw [decodeChars_mark h]
    simp only [List.count_cons]
    have hlast : (if '_' == '_' then 1 else 0 : Nat) = 1 := rfl
    split <;> omega
  | pass c rest hfront ih =>
    rw [holdsMark_cons_of_no_front hfront,
      decodeChars_cons_of_no_front hfront]
    rcases ih with ⟨hrest, heq⟩ | ⟨hrest, hlt⟩
    · exact .inl ⟨hrest, by rw [heq]⟩
    · refine .inr ⟨hrest, ?_⟩
      rw [List.count_cons, List.count_cons]
      omega

theorem decodeChars_eq_self_iff {cs : List Char} :
    decodeChars cs = cs ↔ ¬HoldsMark cs := by
  rcases decodeChars_cases cs with ⟨hmark, heq⟩ | ⟨hmark, hlt⟩
  · exact iff_of_true heq hmark
  · refine iff_of_false (fun heq => ?_) (not_not_intro hmark)
    rw [heq] at hlt
    exact Nat.lt_irrefl _ hlt

/-- Decoding leaves a name alone in which it leaves the number of
underscores. -/
theorem decodeChars_eq_self_of_count {cs : List Char}
    (h : (decodeChars cs).count '_' = cs.count '_') : decodeChars cs = cs := by
  rcases decodeChars_cases cs with ⟨-, heq⟩ | ⟨-, hlt⟩
  · exact heq
  · exact absurd h (Nat.ne_of_lt hlt)

theorem count_decodeChars_le (cs : List Char) :
    (decodeChars cs).count '_' ≤ cs.count '_' := by
  rcases decodeChars_cases cs with ⟨-, heq⟩ | ⟨-, hlt⟩
  · exact Nat.le_of_eq (by rw [heq])
  · exact Nat.le_of_lt hlt

theorem decode_eq_self_iff {name : String} :
    decode name = name ↔ ¬HoldsMark name.toList := by
  rw [← decodeChars_eq_self_iff, decode, ← String.toList_inj,
    String.toList_ofList]

/-- What decoding changes has fewer underscores then. -/
theorem count_decode_lt {name : String} (h : decode name ≠ name) :
    (decode name).toList.count '_' < name.toList.count '_' := by
  rcases decodeChars_cases name.toList with ⟨hmark, -⟩ | ⟨-, hlt⟩
  · exact absurd (decode_eq_self_iff.2 hmark) h
  · rwa [decode, String.toList_ofList]

-- ======================================= marks and percent escaping

section Escaping

variable (short first : Bool) (cs : List Char)

/-- A run of characters that are never escaped starts the escaped name
where it starts the name. -/
theorem prefix_escapeFrom_iff {w : List Char} (hw : ∀ x ∈ w, x ∉ escapable) :
    w <+: escapeFrom short first cs ↔ w <+: cs := by
  induction w generalizing first cs with
  | nil => simp
  | cons a w ih =>
    have ha := hw a (List.mem_cons_self ..)
    have hrest := fun x hx => hw x (List.mem_cons_of_mem a hx)
    cases cs with
    | nil => rfl
    | cons c rest =>
      unfold escapeFrom
      by_cases h : mustEscape short (first || rest.isEmpty) c = true
      · have hc := mem_escapable_of_mustEscape h
        have hpercent : a ≠ '%' := by
          rintro rfl
          exact ha (by decide)
        have hne : a ≠ c := by
          rintro rfl
          exact ha hc
        rw [if_pos h, percentEscape]
        simp [hpercent, hne]
      · rw [if_neg h, List.singleton_append]
        simp only [List.cons_prefix_cons, ih false rest hrest]

/-- No escape holds an underscore. -/
theorem underscore_not_mem_percentEscape (c : Char) :
    '_' ∉ percentEscape c := by
  have hhex : ∀ d < 16, '_' ≠ hexUpper d := by decide
  simp only [percentEscape, List.mem_cons, List.not_mem_nil, or_false, not_or]
  exact ⟨by decide, hhex _ (Nat.mod_lt _ (by decide)),
    hhex _ (Nat.mod_lt _ (by decide))⟩

theorem underscore_not_mem_of_escapable {c : Char} (h : c ∈ escapable) :
    '_' ∉ [c] := by
  intro hmem
  rw [← List.mem_singleton.1 hmem] at h
  exact absurd h (by decide)

theorem holdsMark_append_of_not_mem {xs ys : List Char} (h : '_' ∉ xs) :
    HoldsMark (xs ++ ys) ↔ HoldsMark ys := by
  induction xs with
  | nil => rfl
  | cons x xs ih =>
    simp only [List.mem_cons, not_or] at h
    rw [List.cons_append, holdsMark_cons_of_no_front, ih h.2]
    intro w hw hprefix
    obtain ⟨rest, rfl⟩ := hw.exists_cons
    exact h.1 (List.cons_prefix_cons.1 hprefix).1

theorem holdsMark_escapeFrom_iff :
    HoldsMark (escapeFrom short first cs) ↔ HoldsMark cs := by
  induction cs generalizing first with
  | nil => rfl
  | cons c rest ih =>
    unfold escapeFrom
    by_cases h : mustEscape short (first || rest.isEmpty) c = true
    · have hc := underscore_not_mem_of_escapable
        (mem_escapable_of_mustEscape h)
      rw [if_pos h, holdsMark_append_of_not_mem
        (underscore_not_mem_percentEscape c), ih,
        ← holdsMark_append_of_not_mem hc, List.singleton_append]
    · have hstart : ∀ w, IsMark w →
          (w <+: c :: escapeFrom short false rest ↔ w <+: c :: rest) := by
        intro w hw
        have hiff := prefix_escapeFrom_iff short first (c :: rest)
          fun x hx => hw.not_mem_escapable hx
        unfold escapeFrom at hiff
        rwa [if_neg h, List.singleton_append] at hiff
      rw [if_neg h, List.singleton_append, holdsMark_cons_iff,
        holdsMark_cons_iff, ih]
      exact or_congr_left (exists_congr fun w => and_congr_right (hstart w))

theorem count_escapeFrom :
    (escapeFrom short first cs).count '_' = cs.count '_' := by
  induction cs generalizing first with
  | nil => rfl
  | cons c rest ih =>
    unfold escapeFrom
    rw [List.count_append, ih, ← List.singleton_append (l := rest),
      List.count_append]
    congr 1
    split
    · next h =>
      have hc := underscore_not_mem_of_escapable
        (mem_escapable_of_mustEscape h)
      rw [List.count_eq_zero_of_not_mem hc, List.count_eq_zero_of_not_mem
        (underscore_not_mem_percentEscape c)]
    · rfl

end Escaping

/-- Escaping keeps the marks of a name and makes no new ones. -/
theorem holdsMark_escape (name : String) :
    HoldsMark (escape name).toList ↔ HoldsMark name.toList := by
  rw [escape, String.toList_ofList]
  exact holdsMark_escapeFrom_iff ..

theorem count_escape (name : String) :
    (escape name).toList.count '_' = name.toList.count '_' := by
  rw [escape, String.toList_ofList]
  exact count_escapeFrom ..

/-- No mark lies across a character that is escaped elsewhere, such as a
colon or a slash. -/
theorem holdsMark_append_cons_iff {xs ys : List Char} {c : Char}
    (hc : c ∈ escapable) :
    HoldsMark (xs ++ c :: ys) ↔ HoldsMark xs ∨ HoldsMark ys := by
  constructor
  · rintro ⟨w, hw, hpart⟩
    rw [List.infix_append_iff_ne_nil] at hpart
    rcases hpart with hxs | hys | ⟨front, back, -, hback, rfl, -, hprefix⟩
    · exact .inl ⟨w, hw, hxs⟩
    · refine .inr ?_
      have hrest : HoldsMark (c :: ys) := ⟨w, hw, hys⟩
      rwa [← List.singleton_append, holdsMark_append_of_not_mem
        (underscore_not_mem_of_escapable hc)] at hrest
    · -- what is left of the mark would start with the character
      obtain ⟨b, back, rfl⟩ := List.exists_cons_of_ne_nil hback
      obtain ⟨rfl, -⟩ := List.cons_prefix_cons.1 hprefix
      exact absurd hc (hw.not_mem_escapable (by simp))
  · rintro (⟨w, hw, hpart⟩ | ⟨w, hw, hpart⟩)
    · exact ⟨w, hw, hpart.trans (List.prefix_append ..).isInfix⟩
    · exact ⟨w, hw, (hpart.trans (List.suffix_cons c ys).isInfix).trans
        (List.suffix_append ..).isInfix⟩

end ContentProperties.Name
