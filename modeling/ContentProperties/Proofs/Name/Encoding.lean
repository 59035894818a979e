/-
The older encoding of names: what it ends at, and when decoding undoes
it. An encoded name is legal, whatever the name was. Decoding reads it
back unless the name holds a character above U+EFFFF, which no legal name
holds and whose escape is too long to be read.

# Why no escape is misread

Decoding looks at seven characters at a time. A window that starts at an
escape of the encoder is that escape, and its last underscore is gone
before the next window is tried. A window that starts at a kept
underscore goes on with an `x` and digits; escapes start with an
underscore, so these were kept too (`prefix_of_prefix_encodeFrom`) and
stood in the name one after the other. But then the underscore looked
like the start of an escape, and was not kept.
-/
import ContentProperties.Proofs.Name.Marks
import Mathlib.Data.List.Infix

namespace ContentProperties.Name

open Text

-- ================================================= hexadecimal numbers

/-- However wide a number is written, its last digit is the remainder by
sixteen. -/
theorem hexPadded_succ (width n : Nat) :
    hexPadded (width + 1) n =
      hexPadded width (n / 16) ++ [hexLower (n % 16)] := by
  unfold hexPadded
  by_cases h : n = 0
  · subst h
    simp [hexDigits, hexLower, List.replicate_succ']
  · rw [hexDigits, if_neg h]
    simp

theorem hexPadded_four {n : Nat} (h : n < 0x10000) :
    hexPadded 4 n = [hexLower (n / 4096), hexLower (n / 256 % 16),
      hexLower (n / 16 % 16), hexLower (n % 16)] := by
  have hnone : hexPadded 0 (n / 65536) = [] := by
    rw [Nat.div_eq_of_lt h]
    simp [hexPadded, hexDigits]
  have hfirst : n / 4096 % 16 = n / 4096 := Nat.mod_eq_of_lt (by omega)
  rw [hexPadded_succ, hexPadded_succ, hexPadded_succ, hexPadded_succ]
  simp only [Nat.div_div_eq_div_mul, Nat.reduceMul]
  rw [hnone, hfirst]
  rfl

theorem exists_of_mem_hexPadded {width n : Nat} {c : Char}
    (h : c ∈ hexPadded width n) : ∃ d < 16, c = hexLower d := by
  have hdigits : ∀ n, c ∈ hexDigits n → ∃ d < 16, c = hexLower d := by
    intro n
    fun_induction hexDigits n with
    | case1 => simp
    | case2 n _ ih =>
      intro hmem
      rcases List.mem_append.1 hmem with hmem | hmem
      · exact ih hmem
      · exact ⟨n % 16, Nat.mod_lt _ (by decide), List.mem_singleton.1 hmem⟩
  rcases List.mem_append.1 h with h | h
  · exact ⟨0, by decide, List.eq_of_mem_replicate h⟩
  · exact hdigits n h

/-- A digit stands for a number below sixteen, and is ASCII. -/
theorem lt_of_hexDigit? {c : Char} {d : Nat} (h : hexDigit? c = some d) :
    d < 16 ∧ c.toNat < 128 := by
  have hrange : ∀ {last : Char} {base : Nat}, c ≤ last →
      last.toNat - base < 16 → last.toNat < 128 →
      c.toNat - base < 16 ∧ c.toNat < 128 := by
    intro last base hle hdigit hascii
    have hnat : c.toNat ≤ last.toNat := UInt32.le_iff_toNat_le.1 hle
    omega
  unfold hexDigit? at h
  simp only [Bool.and_eq_true, decide_eq_true_eq] at h
  split at h
  · next hc =>
    cases h
    exact hrange hc.2 (by decide) (by decide)
  split at h
  · next hc =>
    cases h
    exact hrange hc.2 (by decide) (by decide)
  split at h
  · next hc =>
    cases h
    exact hrange hc.2 (by decide) (by decide)
  · cases h

-- ===================================================== marks, read back

/-- The four digits of a character of the basic plane are read as it. -/
theorem markedChar?_of_lt {c : Char} (h : c.toNat < 0x10000) :
    markedChar? (hexLower (c.toNat / 4096)) (hexLower (c.toNat / 256 % 16))
      (hexLower (c.toNat / 16 % 16)) (hexLower (c.toNat % 16)) = some c := by
  have hvalid : c.toNat.isValidChar := c.valid
  have hsum : 16 * (16 * (16 * (16 * 0 + c.toNat / 4096) +
      c.toNat / 256 % 16) + c.toNat / 16 % 16) + c.toNat % 16 = c.toNat := by
    omega
  simp only [markedChar?, hexValue?, List.foldl_cons, List.foldl_nil,
    hexDigit?_hexLower (c.toNat / 4096) (by omega),
    hexDigit?_hexLower _ (Nat.mod_lt _ (by decide)), Option.bind_eq_bind,
    Option.bind_some, Option.pure_def, hsum, charOfNat?, if_pos hvalid,
    Char.ofNat_toNat]

/-- The escape of a character of the basic plane is read as it. -/
theorem decodeChars_markEscape {c : Char} (h : c.toNat < 0x10000)
    (rest : List Char) :
    decodeChars (markEscape c ++ rest) = c :: decodeChars rest := by
  rw [markEscape, hexPadded_four h]
  show decodeChars ('_' :: 'x' :: _ :: _ :: _ :: _ :: '_' :: rest) = _
  rw [decodeChars, markedChar?_of_lt h]

-- ==================================================== legal characters

theorem isNameChar_of_isNameStart {c : Char} (h : isNameStart c = true) :
    isNameChar c = true := by
  rw [isNameChar, h, Bool.true_or]

/-- No name holds a character above U+EFFFF. -/
theorem toNat_le_of_isNameChar {c : Char} (h : isNameChar c = true) :
    c.toNat ≤ 0xEFFFF := by
  have hbound : ∀ ranges : List (Nat × Nat),
      ranges.all (fun r => r.2 ≤ 0xEFFFF) = true →
      (ranges.any fun r => r.1 ≤ c.toNat && c.toNat ≤ r.2) = true →
      c.toNat ≤ 0xEFFFF := by
    intro ranges hall hany
    obtain ⟨r, hr, hc⟩ := List.any_eq_true.1 hany
    have hlast := of_decide_eq_true (List.all_eq_true.1 hall r hr)
    have hle := of_decide_eq_true (Bool.and_eq_true_iff.1 hc).2
    omega
  rcases Bool.or_eq_true_iff.1 h with hstart | hinner
  · exact hbound nameStartRanges (by decide) hstart
  · exact hbound nameInnerRanges (by decide) hinner

/-- Between the basic plane and U+EFFFF every character is legal
anywhere. -/
theorem isNameStart_of_toNat {c : Char} (hlow : 0x10000 ≤ c.toNat)
    (hhigh : c.toNat ≤ 0xEFFFF) : isNameStart c = true :=
  List.any_eq_true.2 ⟨(0x10000, 0xEFFFF), by decide, by simp [hlow, hhigh]⟩

/-- How the encoder judges the character at hand: like the start of a
name, or like what follows it. -/
structure Judges (legal : Char → Bool) : Prop where
  nameChar : ∀ {c}, legal c = true → isNameChar c = true
  nameStart : ∀ {c}, isNameStart c = true → legal c = true

theorem judges_isNameStart : Judges isNameStart :=
  ⟨isNameChar_of_isNameStart, id⟩

theorem judges_isNameChar : Judges isNameChar :=
  ⟨id, isNameChar_of_isNameStart⟩

/-- A character is escaped only outside U+10000 to U+EFFFF. -/
theorem Judges.lt_of_illegal {legal : Char → Bool} (h : Judges legal)
    {c : Char} (hc : legal c = false) (hhigh : c.toNat ≤ 0xEFFFF) :
    c.toNat < 0x10000 := by
  rcases Nat.lt_or_ge c.toNat 0x10000 with hlow | hlow
  · exact hlow
  · rw [h.nameStart (isNameStart_of_toNat hlow hhigh)] at hc
    cases hc

-- ============================================================ lookalikes

/-- Somewhere in the name an underscore is followed by an `x` and four
hexadecimal digits. -/
def HoldsLookalike (name : List Char) : Prop :=
  ∃ a b c d, (∀ x ∈ [a, b, c, d], isHexDigit x) ∧
    ['_', 'x', a, b, c, d] <:+: name

theorem looksEscaped_iff {cs : List Char} :
    looksEscaped cs = true ↔ ∃ a b c d,
      (∀ x ∈ [a, b, c, d], isHexDigit x) ∧ ['_', 'x', a, b, c, d] <+: cs := by
  constructor
  · intro h
    unfold looksEscaped at h
    split at h
    · next a b c d rest =>
      exact ⟨a, b, c, d, List.all_eq_true.1 h, rest, rfl⟩
    · cases h
  · rintro ⟨a, b, c, d, hdigits, rest, rfl⟩
    exact List.all_eq_true.2 hdigits

theorem holdsLookalike_iff {name : List Char} :
    HoldsLookalike name ↔ name.tails.any looksEscaped = true := by
  simp only [HoldsLookalike, List.any_eq_true, List.mem_tails,
    looksEscaped_iff, List.infix_iff_prefix_suffix]
  grind

instance (name : List Char) : Decidable (HoldsLookalike name) :=
  decidable_of_iff _ holdsLookalike_iff.symm

-- ============================================================== encoding

section Encoding

variable {legal : Char → Bool} {cs : List Char}

/-- A character as it is written: an escape, or the character itself,
which is legal and starts nothing that looks like an escape then. -/
theorem encodeFrom_cons_cases (legal : Char → Bool) (c : Char)
    (rest : List Char) :
    ((legal c = false ∨ c = '_') ∧ encodeFrom legal (c :: rest) =
      markEscape c ++ encodeFrom isNameChar rest) ∨
    (legal c = true ∧ looksEscaped (c :: rest) = false ∧
      encodeFrom legal (c :: rest) = c :: encodeFrom isNameChar rest) := by
  rw [encodeFrom]
  by_cases hlegal : legal c = true
  · by_cases hlooks : looksEscaped (c :: rest) = true
    · obtain ⟨_, _, _, _, -, hfront⟩ := looksEscaped_iff.1 hlooks
      obtain ⟨rfl, -⟩ := List.cons_prefix_cons.1 hfront
      exact .inl ⟨.inr rfl, by simp [hlegal, hlooks]⟩
    · exact .inr ⟨hlegal, by simpa using hlooks, by simp [hlegal, hlooks]⟩
  · exact .inl ⟨.inl (by simpa using hlegal), by simp [hlegal]⟩

/-- Characters without an underscore that start the encoded name start
the name. -/
theorem prefix_of_prefix_encodeFrom {t : List Char} (ht : '_' ∉ t)
    (h : t <+: encodeFrom legal cs) : t <+: cs := by
  induction t generalizing legal cs with
  | nil => exact List.nil_prefix
  | cons a t ih =>
    simp only [List.mem_cons, not_or] at ht
    cases cs with
    | nil => exact absurd h (by simp [encodeFrom])
    | cons c rest =>
      rcases encodeFrom_cons_cases legal c rest with ⟨-, heq⟩ | ⟨-, -, heq⟩
      · rw [heq, markEscape] at h
        exact absurd (List.cons_prefix_cons.1 h).1.symm ht.1
      · rw [heq] at h
        obtain ⟨rfl, htail⟩ := List.cons_prefix_cons.1 h
        exact List.cons_prefix_cons.2 ⟨rfl, ih ht.2 htail⟩

/-- A mark cannot start at a character that was kept. -/
theorem not_mark_prefix_of_kept {c : Char} {rest w : List Char}
    (hlooks : looksEscaped (c :: rest) = false) (hw : IsMark w) :
    ¬w <+: c :: encodeFrom legal rest := by
  intro hfront
  obtain ⟨a, b, c', d, rfl, hmarked⟩ := hw
  have hdigits := isHexDigit_of_markedChar? hmarked
  obtain ⟨rfl, hrest⟩ := List.cons_prefix_cons.1 hfront
  have hplain : '_' ∉ ['x', a, b, c', d] := by
    have hunderscore : isHexDigit '_' = false := by decide
    intro hmem
    rcases List.mem_cons.1 hmem with hx | hdigit
    · cases hx
    · rw [hdigits _ hdigit] at hunderscore
      cases hunderscore
  have hkept : ['x', a, b, c', d] <+: rest :=
    prefix_of_prefix_encodeFrom hplain
      ((List.prefix_append ['x', a, b, c', d] ['_']).trans hrest)
  rw [looksEscaped_iff.2 ⟨a, b, c', d, hdigits,
    List.cons_prefix_cons.2 ⟨rfl, hkept⟩⟩] at hlooks
  cases hlooks

theorem decodeChars_encodeFrom (hlegal : Judges legal)
    (hcs : ∀ c ∈ cs, c.toNat ≤ 0xEFFFF) :
    decodeChars (encodeFrom legal cs) = cs := by
  induction cs generalizing legal with
  | nil => rfl
  | cons c rest ih =>
    have hc := hcs c List.mem_cons_self
    have hrest := ih judges_isNameChar
      fun d hd => hcs d (List.mem_cons_of_mem _ hd)
    rcases encodeFrom_cons_cases legal c rest with
      ⟨hwhy, heq⟩ | ⟨-, hlooks, heq⟩
    · have hlow : c.toNat < 0x10000 := by
        rcases hwhy with hillegal | rfl
        · exact hlegal.lt_of_illegal hillegal hc
        · decide
      rw [heq, decodeChars_markEscape hlow, hrest]
    · rw [heq, decodeChars_cons_of_no_front
        (fun w hw => not_mark_prefix_of_kept hlooks hw), hrest]

/-- Legal characters in which nothing looks like an escape are encoded as
themselves. -/
theorem encodeFrom_eq_self (hlegal : ∀ c ∈ cs.head?, legal c = true)
    (hinner : ∀ c ∈ cs.tail, isNameChar c = true)
    (hlooks : ¬HoldsLookalike cs) : encodeFrom legal cs = cs := by
  induction cs generalizing legal with
  | nil => rfl
  | cons c rest ih =>
    have hkept : ¬looksEscaped (c :: rest) = true := by
      intro h
      obtain ⟨a, b, c', d, hdigits, hfront⟩ := looksEscaped_iff.1 h
      exact hlooks ⟨a, b, c', d, hdigits, hfront.isInfix⟩
    have hrest : encodeFrom isNameChar rest = rest := by
      refine ih (fun d hd => ?_) (fun d hd => ?_) ?_
      · exact hinner d (List.mem_of_mem_head? hd)
      · exact hinner d (List.mem_of_mem_tail hd)
      · rintro ⟨a, b, c', d, hdigits, hpart⟩
        exact hlooks ⟨a, b, c', d, hdigits,
          hpart.trans (List.suffix_cons c rest).isInfix⟩
    rw [encodeFrom, hlegal c rfl, if_neg (by simp), if_neg hkept, hrest]
    rfl

theorem encodeFrom_eq_self_of_isLegalName {name : List Char}
    (h : isLegalName name = true) (hlooks : ¬HoldsLookalike name) :
    encodeFrom isNameStart name = name := by
  cases name with
  | nil => rfl
  | cons c rest =>
    obtain ⟨hstart, hall⟩ := Bool.and_eq_true_iff.1 h
    refine encodeFrom_eq_self ?_ (fun d hd => ?_) hlooks
    · simpa using hstart
    · exact List.all_eq_true.1 hall d (List.mem_of_mem_tail hd)

/-- A name that looks like an escape somewhere holds `_x`. -/
theorem hasMark_of_holdsLookalike (h : HoldsLookalike cs) :
    hasMark cs = true := by
  obtain ⟨a, b, c, d, -, hpart⟩ := h
  fun_induction hasMark cs with
  | case1 => rfl
  | case2 e rest hother ih =>
    refine ih ?_
    rcases List.infix_cons_iff.1 hpart with ⟨after, hfront⟩ | hrest
    · cases hfront
      exact absurd rfl (hother _ rfl)
    · exact hrest
  | case3 => simp at hpart

/-- The shortcut for names without `_x` changes nothing. -/
theorem encodeChars_eq_encodeFrom (name : List Char) :
    encodeChars name = encodeFrom isNameStart name := by
  unfold encodeChars
  split
  · next hkept =>
    cases name with
    | nil => rfl
    | cons c rest =>
      obtain ⟨hlegal, hmark⟩ := Bool.and_eq_true_iff.1 hkept
      refine (encodeFrom_eq_self_of_isLegalName hlegal fun hlooks => ?_).symm
      rw [hasMark_of_holdsLookalike hlooks] at hmark
      cases hmark
  · rfl

-- ============================================================ legal names

theorem isNameStart_underscore : isNameStart '_' = true := by decide

/-- An escape consists of characters that a name may hold. -/
theorem isNameChar_of_mem_markEscape {c d : Char} (h : d ∈ markEscape c) :
    isNameChar d = true := by
  have hdigit : ∀ n < 16, isNameChar (hexLower n) = true := by decide
  rw [markEscape] at h
  simp only [List.mem_append, List.mem_cons, List.not_mem_nil, or_false] at h
  rcases h with ((rfl | rfl) | hmem) | rfl
  · decide
  · decide
  · obtain ⟨n, hn, rfl⟩ := exists_of_mem_hexPadded hmem
    exact hdigit n hn
  · decide

theorem isNameChar_of_mem_encodeFrom (hlegal : Judges legal) :
    ∀ d ∈ encodeFrom legal cs, isNameChar d = true := by
  induction cs generalizing legal with
  | nil => simp [encodeFrom]
  | cons c rest ih =>
    intro d hd
    rcases encodeFrom_cons_cases legal c rest with ⟨-, heq⟩ | ⟨hc, -, heq⟩
    · rw [heq] at hd
      rcases List.mem_append.1 hd with hd | hd
      · exact isNameChar_of_mem_markEscape hd
      · exact ih judges_isNameChar d hd
    · rw [heq] at hd
      rcases List.mem_cons.1 hd with rfl | hd
      · exact hlegal.nameChar hc
      · exact ih judges_isNameChar d hd

/-- The first character of an encoded name may start one. -/
theorem exists_encodeFrom_eq_cons (c : Char) (rest : List Char) :
    ∃ first more, encodeFrom isNameStart (c :: rest) = first :: more ∧
      isNameStart first = true := by
  rcases encodeFrom_cons_cases isNameStart c rest with ⟨-, heq⟩ | ⟨hc, -, heq⟩
  · exact ⟨'_', _, heq, isNameStart_underscore⟩
  · exact ⟨c, _, heq, hc⟩

/-- Every character of an encoded name is one that a name may hold. -/
theorem isNameChar_of_mem_encodeChars (name : List Char) :
    ∀ c ∈ encodeChars name, isNameChar c = true := by
  rw [encodeChars_eq_encodeFrom]
  exact isNameChar_of_mem_encodeFrom judges_isNameStart

theorem isLegalName_encodeChars {name : List Char} (h : name ≠ []) :
    isLegalName (encodeChars name) = true := by
  have hchars := isNameChar_of_mem_encodeChars name
  obtain ⟨c, rest, rfl⟩ := List.exists_cons_of_ne_nil h
  obtain ⟨first, more, heq, hstart⟩ := exists_encodeFrom_eq_cons c rest
  rw [encodeChars_eq_encodeFrom, heq] at hchars ⊢
  exact Bool.and_eq_true_iff.2 ⟨hstart, List.all_eq_true.2 hchars⟩

end Encoding

-- =========================================================== round trip

/-- The characters above U+EFFFF. Neither does decoding make one, nor
does it lose one. -/
def isBeyond (c : Char) : Bool := 0xEFFFF < c.toNat

theorem isBeyond_of_isHexDigit {c : Char} (h : isHexDigit c = true) :
    isBeyond c = false := by
  obtain ⟨d, hd⟩ := Option.isSome_iff_exists.1 h
  have hascii := (lt_of_hexDigit? hd).2
  simp only [isBeyond, decide_eq_false_iff_not]
  omega

/-- An escape of four digits is read as a character of the basic
plane. -/
theorem isBeyond_of_markedChar? {a b c d decoded : Char}
    (h : markedChar? a b c d = some decoded) : isBeyond decoded = false := by
  obtain ⟨i, j, k, l, ha, hb, hc, hd, hchar⟩ := of_markedChar? h
  have hi := (lt_of_hexDigit? ha).1
  have hj := (lt_of_hexDigit? hb).1
  have hk := (lt_of_hexDigit? hc).1
  have hl := (lt_of_hexDigit? hd).1
  unfold charOfNat? at hchar
  split at hchar
  · next hvalid =>
    have hnumber : ∀ {n : Nat}, n.isValidChar → (Char.ofNat n).toNat = n := by
      intro n hn
      rw [Char.ofNat, dif_pos hn]
      rfl
    rw [← Option.some.inj hchar, isBeyond, hnumber hvalid,
      decide_eq_false_iff_not]
    omega
  · cases hchar

theorem countP_isBeyond_decodeChars (cs : List Char) :
    (decodeChars cs).countP isBeyond = cs.countP isBeyond := by
  induction cs using mark_induction with
  | nil => rfl
  | mark a b c d decoded rest h ih =>
    have hdigits : ∀ x ∈ [a, b, c, d], isBeyond x = false := fun x hx =>
      isBeyond_of_isHexDigit
        (isHexDigit_of_markedChar? (by rw [h]; rfl) x hx)
    simp only [List.mem_cons, List.not_mem_nil, or_false, forall_eq_or_imp,
      forall_eq] at hdigits
    obtain ⟨ha, hb, hc, hd⟩ := hdigits
    rw [decodeChars_mark h]
    simp [ih, isBeyond_of_markedChar? h, ha, hb, hc, hd,
      show isBeyond '_' = false by decide, show isBeyond 'x' = false by decide]
  | pass c rest hfront ih =>
    rw [decodeChars_cons_of_no_front hfront, List.countP_cons, ih,
      ← List.countP_cons]

theorem countP_isBeyond_encodeChars (name : List Char) :
    (encodeChars name).countP isBeyond = 0 := by
  rw [List.countP_eq_zero]
  intro c hc
  have hle := toNat_le_of_isNameChar (isNameChar_of_mem_encodeChars name c hc)
  simp only [isBeyond, decide_eq_true_eq]
  omega

theorem countP_isBeyond_eq_zero_iff {cs : List Char} :
    cs.countP isBeyond = 0 ↔ ∀ c ∈ cs, c.toNat ≤ 0xEFFFF := by
  simp [List.countP_eq_zero, isBeyond]

/-- Decoding undoes encoding exactly on names without a character above
U+EFFFF. -/
theorem decodeChars_encodeChars_iff {name : List Char} :
    decodeChars (encodeChars name) = name ↔
      ∀ c ∈ name, c.toNat ≤ 0xEFFFF := by
  constructor
  · intro h
    rw [← countP_isBeyond_eq_zero_iff, ← h, countP_isBeyond_decodeChars,
      countP_isBeyond_encodeChars]
  · intro h
    rw [encodeChars_eq_encodeFrom, decodeChars_encodeFrom judges_isNameStart h]

theorem decode_encode_iff {name : String} :
    decode (encode name) = name ↔ ∀ c ∈ name.toList, c.toNat ≤ 0xEFFFF := by
  rw [← decodeChars_encodeChars_iff, decode, encode, String.toList_ofList,
    ← String.toList_inj, String.toList_ofList]

/-- Decoding an encoded name yields the name exactly if that holds no
character above U+EFFFF. An encoded name is legal unless it is empty. A
legal name in which nothing looks like an escape is encoded as itself, by
the loop no less than by the shortcut. -/
theorem encode_is_read_back_and_legal (name : String) :
    (decode (encode name) = name ↔
      ∀ c ∈ name.toList, c.toNat ≤ 0xEFFFF) ∧
    (name ≠ "" → isLegalName (encode name).toList = true) ∧
    (isLegalName name.toList = true → ¬HoldsLookalike name.toList →
      encode name = name ∧
        encodeFrom isNameStart name.toList = name.toList) := by
  refine ⟨decode_encode_iff, fun hname => ?_, fun hlegal hlooks => ?_⟩
  · rw [encode, String.toList_ofList]
    exact isLegalName_encodeChars (mt String.toList_eq_nil_iff.1 hname)
  · have hloop : encodeFrom isNameStart name.toList = name.toList :=
      encodeFrom_eq_self_of_isLegalName hlegal hlooks
    refine ⟨?_, hloop⟩
    rw [encode, encodeChars_eq_encodeFrom, hloop, String.ofList_toList]

/-- A name with `_x` in it that does not go on like an escape, so that
the loop encodes it. -/
theorem encode_xylophone :
    "my_xylophone" ≠ "" ∧ isLegalName "my_xylophone".toList = true ∧
    ¬HoldsLookalike "my_xylophone".toList ∧
    hasMark "my_xylophone".toList = true ∧
    decode (encode "my_xylophone") = "my_xylophone" ∧
    isLegalName (encode "my_xylophone").toList = true ∧
    encode "my_xylophone" = "my_xylophone" := by
  have hne : "my_xylophone" ≠ "" := by decide
  have hlegal : isLegalName "my_xylophone".toList = true := by
    decide +kernel
  have hlooks : ¬HoldsLookalike "my_xylophone".toList := by decide +kernel
  have hchars : "my_xylophone".toList.all isNameChar = true := by
    decide +kernel
  have hlow : ∀ c ∈ "my_xylophone".toList, c.toNat ≤ 0xEFFFF := fun c hc =>
    toNat_le_of_isNameChar (List.all_eq_true.1 hchars c hc)
  obtain ⟨hback, hencoded, hsame⟩ :=
    encode_is_read_back_and_legal "my_xylophone"
  exact ⟨hne, hlegal, hlooks, by decide +kernel, hback.2 hlow, hencoded hne,
    (hsame hlegal hlooks).1⟩

/-- An escape in the name is protected, and abuts the escape of a blank
before it; beyond U+EFFFF an escape has too many digits. -/
example : encode " _x0041_" = "_x0020__x005f_x0041_" ∧
    decode "_x0020__x005f_x0041_" = " _x0041_" ∧
    encode (String.singleton (Char.ofNat 0xf0000)) = "_xf0000_" ∧
    decode "_xf0000_" = "_xf0000_" := by
  decide +kernel

end ContentProperties.Name
