/-
Decimal digits read back. The writer splits off the last digit, the
reader goes from the first digit on with what it has read so far, so the
reader is cut at the last digit (`digitsAfter?_append`) and the induction
is the writer's. Zeros in front change nothing that is read, and how many
digits a number has is bounded by the power of ten above it; these two
carry numbers of fixed width.
-/
import ContentProperties.Numeric.Digits
import Mathlib.Tactic.Ring

namespace ContentProperties.Numeric

-- ============================================================ characters

theorem isDigit_digitChar : ∀ d < 10, isDigit (digitChar d) = true := by
  decide

/-- A digit is no sign, and none of the marks that end a number. -/
theorem ne_of_isDigit {c mark : Char} (hc : isDigit c = true)
    (hmark : isDigit mark = false) : c ≠ mark := by
  rintro rfl
  rw [hc] at hmark
  cases hmark

theorem isDigit_of_mem_natDigits {n : Nat} {c : Char}
    (hc : c ∈ natDigits n) : isDigit c = true := by
  induction n using natDigits.induct with
  | case1 n hsmall =>
      rw [natDigits, if_pos hsmall, List.mem_singleton] at hc
      rw [hc]
      exact isDigit_digitChar n hsmall
  | case2 n hlarge ih =>
      rw [natDigits, if_neg hlarge, List.mem_append,
        List.mem_singleton] at hc
      rcases hc with hfront | rfl
      · exact ih hfront
      · exact isDigit_digitChar _ (Nat.mod_lt n (by omega))

/-- A character that counts as a digit is the one for its number. -/
theorem of_digit?_eq_some {c : Char} {d : Nat} (h : digit? c = some d) :
    d < 10 ∧ c = digitChar d := by
  unfold digit? at h
  split at h
  · next hrange =>
    obtain ⟨hlow, hhigh⟩ : 48 ≤ c.toNat ∧ c.toNat ≤ 57 := by
      simpa [Char.le_def, UInt32.le_iff_toNat_le] using hrange
    cases h
    refine ⟨by omega, ?_⟩
    rw [digitChar, Nat.add_sub_cancel' hlow, Char.ofNat_toNat]
  · cases h

-- =============================================================== reading

/-- The reader may be stopped after any digits. -/
theorem digitsAfter?_append (acc : Nat) (front back : List Char) :
    digitsAfter? acc (front ++ back) =
      (digitsAfter? acc front).bind fun read => digitsAfter? read back := by
  induction front generalizing acc with
  | nil => rfl
  | cons c rest ih =>
    simp only [List.cons_append, digitsAfter?]
    cases digit? c with
    | none => rfl
    | some d => exact ih (10 * acc + d)

/-- The digits of a number are read after what was read before, shifted
by as many places. -/
theorem digitsAfter?_natDigits (acc n : Nat) :
    digitsAfter? acc (natDigits n) =
      some (acc * 10 ^ (natDigits n).length + n) := by
  induction n using natDigits.induct with
  | case1 n hsmall =>
      rw [natDigits, if_pos hsmall]
      simp only [digitsAfter?, digit?_digitChar n hsmall, List.length_singleton]
      congr 1
      ring
  | case2 n hlarge ih =>
      have hlast : n % 10 < 10 := Nat.mod_lt n (by omega)
      rw [natDigits, if_neg hlarge, digitsAfter?_append, ih]
      simp only [Option.bind_some, digitsAfter?, digit?_digitChar _ hlast,
        List.length_append, List.length_singleton, Nat.pow_succ]
      congr 1
      have hsplit := Nat.div_add_mod n 10
      calc 10 * (acc * 10 ^ (natDigits (n / 10)).length + n / 10) + n % 10
          = acc * (10 ^ (natDigits (n / 10)).length * 10) +
              (10 * (n / 10) + n % 10) := by ring
        _ = acc * (10 ^ (natDigits (n / 10)).length * 10) + n := by
              rw [hsplit]

/-- Zeros in front are read as nothing. -/
theorem digitsAfter?_zeros (count : Nat) (cs : List Char) :
    digitsAfter? 0 (List.replicate count '0' ++ cs) = digitsAfter? 0 cs := by
  induction count with
  | zero => rfl
  | succ count ih =>
    rw [List.replicate_succ, List.cons_append]
    exact ih

-- ================================================================ widths

theorem natDigits_ne_nil (n : Nat) : natDigits n ≠ [] := by
  rw [natDigits]
  split <;> simp

theorem length_natDigits_le {width n : Nat} (hwidth : 0 < width)
    (h : n < 10 ^ width) : (natDigits n).length ≤ width := by
  induction width generalizing n with
  | zero => omega
  | succ width ih =>
    by_cases hsmall : n < 10
    · rw [natDigits, if_pos hsmall, List.length_singleton]
      omega
    · have hpos : 0 < width := by
        rcases Nat.eq_zero_or_pos width with rfl | hpos
        · simp at h
          omega
        · exact hpos
      have hfront : n / 10 < 10 ^ width := by
        rw [Nat.pow_succ] at h
        omega
      rw [natDigits, if_neg hsmall, List.length_append,
        List.length_singleton]
      exact Nat.succ_le_succ (ih hpos hfront)

end ContentProperties.Numeric
