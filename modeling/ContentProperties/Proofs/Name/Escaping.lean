/-
Percent escaping is undone by unescaping, and leaves none of the
characters in a name that no item name may hold, but for the percent
sign of its own escapes.

Escaped characters are few and ASCII, so what an escape reads back as is
a finite check (`unescapeChars_percentEscape`); all others are not the
percent sign, and unescaping passes them by (`unescapeChars_cons`). The
rules that depend on the place do not matter to either.
-/
import ContentProperties.Name.Percent

namespace ContentProperties.Name

open Text

-- ================================================= escaped characters

/-- The characters that are escaped at some place. -/
def escapable : List Char := '.' :: ' ' :: illegalChars

/-- What is escaped by the rules of some place is in the list. -/
theorem mem_escapable_of_mustEscape {short atEnd : Bool} {c : Char}
    (h : mustEscape short atEnd c = true) : c ∈ escapable := by
  simp only [mustEscape, Bool.or_eq_true, Bool.and_eq_true, beq_iff_eq,
    List.contains_iff_mem] at h
  rcases h with (h | ⟨rfl, -⟩) | ⟨rfl, -⟩
  · exact List.mem_cons_of_mem _ (List.mem_cons_of_mem _ h)
  · simp [escapable]
  · simp [escapable]

/-- The percent sign is escaped at every place, so it stays only where it
opens an escape. -/
theorem ne_percent_of_not_mustEscape {short atEnd : Bool} {c : Char}
    (h : ¬mustEscape short atEnd c = true) : c ≠ '%' := by
  rintro rfl
  exact h (by simp [mustEscape, illegalChars])

/-- Only a percent sign is read as more than itself. -/
theorem unescapeChars_cons {c : Char} (h : c ≠ '%') (rest : List Char) :
    unescapeChars (c :: rest) = c :: unescapeChars rest := by
  rw [unescapeChars]
  intro _ _ _ hc
  exact absurd hc h

/-- The escape of a character reads back as the character. -/
theorem unescapeChars_percentEscape {c : Char} (h : c ∈ escapable)
    (rest : List Char) :
    unescapeChars (percentEscape c ++ rest) = c :: unescapeChars rest := by
  -- A check of the list, for there are too many characters in all.
  have hdigits : escapable.all (fun c =>
      hexDigit? (hexUpper (c.toNat / 16 % 16)) = some (c.toNat / 16) ∧
      hexDigit? (hexUpper (c.toNat % 16)) = some (c.toNat % 16)) = true := by
    decide +kernel
  obtain ⟨hhigh, hlow⟩ := of_decide_eq_true (List.all_eq_true.1 hdigits c h)
  show unescapeChars ('%' :: hexUpper _ :: hexUpper _ :: rest) = _
  rw [unescapeChars, hhigh, hlow]
  dsimp only
  rw [show 16 * (c.toNat / 16) + c.toNat % 16 = c.toNat by omega,
    Char.ofNat_toNat]

-- ======================================================== round trip

/-- Unescaping reads an escaped name back and goes on behind it. -/
theorem unescapeChars_escapeFrom_append (short first : Bool)
    (cs rest : List Char) :
    unescapeChars (escapeFrom short first cs ++ rest) =
      cs ++ unescapeChars rest := by
  induction cs generalizing first with
  | nil => rfl
  | cons c more ih =>
    unfold escapeFrom
    by_cases h : mustEscape short (first || more.isEmpty) c = true
    · rw [if_pos h, List.append_assoc,
        unescapeChars_percentEscape (mem_escapable_of_mustEscape h), ih,
        List.cons_append]
    · rw [if_neg h, List.append_assoc, List.singleton_append,
        unescapeChars_cons (ne_percent_of_not_mustEscape h), ih,
        List.cons_append]

theorem unescapeChars_escapeChars_append (name rest : List Char) :
    unescapeChars (escapeChars name ++ rest) = name ++ unescapeChars rest :=
  unescapeChars_escapeFrom_append _ _ name rest

theorem unescapeChars_escapeChars (name : List Char) :
    unescapeChars (escapeChars name) = name := by
  simpa [unescapeChars] using unescapeChars_escapeChars_append name []

/-- Escaping is undone by unescaping. -/
theorem unescape_escape (name : String) : unescape (escape name) = name := by
  rw [unescape, escape, String.toList_ofList, unescapeChars_escapeChars,
    String.ofList_toList]

/-- No two names are escaped alike. -/
theorem escape_injective {a b : String} (h : escape a = escape b) : a = b := by
  rw [← unescape_escape a, h, unescape_escape]

-- ================================================== what is left out

/-- The digits of an escape are legal. -/
theorem hexUpper_not_mem_illegalChars :
    ∀ d < 16, hexUpper d ∉ illegalChars := by decide

/-- No illegal character is left in an escaped name, but for the percent
sign: it is escaped, and no escape holds one. -/
theorem not_mem_escapeFrom {c : Char} (hc : c ∈ illegalChars)
    (hpercent : c ≠ '%') (short first : Bool) (cs : List Char) :
    c ∉ escapeFrom short first cs := by
  have hescape : ∀ a, c ∉ percentEscape a := by
    intro a h
    simp only [percentEscape, List.mem_cons, List.not_mem_nil, or_false] at h
    rcases h with rfl | rfl | rfl
    · exact hpercent rfl
    · exact hexUpper_not_mem_illegalChars _ (Nat.mod_lt _ (by decide)) hc
    · exact hexUpper_not_mem_illegalChars _ (Nat.mod_lt _ (by decide)) hc
  -- Whether a character comes first changes along the name.
  induction cs generalizing first with
  | nil => exact List.not_mem_nil
  | cons a rest ih =>
    intro h
    rcases List.mem_append.1 h with h | h
    · split at h
      · exact hescape a h
      · next hkept =>
        rw [← List.mem_singleton.1 h] at hkept
        exact hkept (by simp [mustEscape, hc])
    · exact ih false h

theorem not_mem_escape {c : Char} (hc : c ∈ illegalChars) (hpercent : c ≠ '%')
    (name : String) : c ∉ (escape name).toList := by
  rw [escape, String.toList_ofList]
  exact not_mem_escapeFrom hc hpercent _ _ _

end ContentProperties.Name
