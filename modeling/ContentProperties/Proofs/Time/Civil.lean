/-
The calendar counts days and dates alike: the date of a day exists, and
its day is that day again.

# Method

A day is placed twice, in a year and in a month of that year. The start
of the next year is the start of a year plus the length of the year
(`daysBeforeYear_succ`). The start of a year stays within two days of
what the mean length of a year makes of it (`daysBeforeYear_near`), so
the estimate of a day's year is at most one off and the correction meets
it (`yearOfDay_bounds`). Within the year the months are a list of lengths
that are passed one after the other, and the induction is on that list
(`monthOfDay_spec`); nothing is said of the single months.
-/
import ContentProperties.Time.Timestamp

namespace ContentProperties.Time

-- ================================================================= years

theorem isLeap_iff (year : Int) :
    isLeap year = true ↔
      year % 4 = 0 ∧ (year % 100 ≠ 0 ∨ year % 400 = 0) := by
  simp [isLeap]

/-- The months of a year make a year. -/
theorem daysOfMonths_year (leap : Bool) :
    daysOfMonths 12 (monthLengths leap) = if leap then 366 else 365 := by
  cases leap <;> rfl

/-- A year begins where the one before it ends. -/
theorem daysBeforeYear_succ (year : Int) :
    daysBeforeYear (year + 1) =
      daysBeforeYear year + daysOfMonths 12 (monthLengths (isLeap year)) := by
  have hcentury : year % 100 = 0 → year % 4 = 0 := by omega
  have hcycle : year % 400 = 0 → year % 100 = 0 := by omega
  -- a quotient goes up where its divisor meets the year
  have hquarter : year / 4 =
      (year - 1) / 4 + if year % 4 = 0 then 1 else 0 := by
    split <;> omega
  have hhundred : year / 100 =
      (year - 1) / 100 + if year % 100 = 0 then 1 else 0 := by
    split <;> omega
  have hfour : year / 400 =
      (year - 1) / 400 + if year % 400 = 0 then 1 else 0 := by
    split <;> omega
  rw [daysOfMonths_year]
  unfold daysBeforeYear
  dsimp only
  rw [Int.add_sub_cancel, hquarter, hhundred, hfour]
  by_cases hleap : isLeap year = true
  · obtain ⟨hmod, hcommon⟩ := (isLeap_iff year).1 hleap
    rw [hleap, if_pos hmod]
    split <;> split <;> simp <;> omega
  · have hcommon : ¬(year % 4 = 0 ∧ (year % 100 ≠ 0 ∨ year % 400 = 0)) :=
      fun h => hleap ((isLeap_iff year).2 h)
    rw [if_neg hleap]
    split <;> split <;> split <;> simp <;> omega

/-- The start of a year is near to what the mean year makes of it. -/
theorem daysBeforeYear_near (year : Int) :
    146097 * (year - 1) - 700 ≤ 400 * daysBeforeYear year ∧
      400 * daysBeforeYear year ≤ 146097 * (year - 1) + 396 := by
  unfold daysBeforeYear
  dsimp only
  omega

/-- A day lies between the start of its year and that of the next. -/
theorem yearOfDay_bounds (n : Int) :
    daysBeforeYear (yearOfDay n) ≤ n ∧
      n < daysBeforeYear (yearOfDay n + 1) := by
  unfold yearOfDay
  dsimp only
  generalize hestimate : n * 400 / 146097 + 1 = estimate
  split
  · next hearly =>
    have hbefore := daysBeforeYear_near (estimate - 1)
    rw [Int.sub_add_cancel]
    omega
  · split
    · next hlate =>
      have hafter := daysBeforeYear_near (estimate + 1 + 1)
      omega
    · omega

/-- The years of the calendar's days are those of the calendar. -/
theorem yearOfDay_mem {n : Int} (hfirst : daysBeforeYear (-9999) ≤ n)
    (hend : n < daysBeforeYear 10000) :
    -9999 ≤ yearOfDay n ∧ yearOfDay n ≤ 9999 := by
  obtain ⟨hstart, hnext⟩ := yearOfDay_bounds n
  generalize yearOfDay n = year at hstart hnext
  unfold daysBeforeYear at hfirst hend hstart hnext
  dsimp only at hfirst hend hstart hnext
  omega

-- ================================================================ months

/-- A day of the months is a day of one of them, and the months before it
and the days before it in the month are what was passed. -/
theorem monthOfDay_spec {lengths : List Nat} {day : Nat} (month : Nat)
    (h : day < daysOfMonths lengths.length lengths) :
    ∃ passed length dayOfMonth,
      monthOfDay month day lengths = (month + passed, dayOfMonth + 1) ∧
      lengths[passed]? = some length ∧ dayOfMonth < length ∧
      daysOfMonths passed lengths + dayOfMonth = day := by
  induction lengths generalizing month day with
  | nil => exact absurd h (Nat.not_lt_zero day)
  | cons length rest ih =>
    unfold monthOfDay
    by_cases hday : day < length
    · rw [if_pos hday]
      exact ⟨0, length, day, rfl, rfl, hday, Nat.zero_add day⟩
    · rw [if_neg hday]
      have hrest : day - length < daysOfMonths rest.length rest := by
        rw [List.length_cons, daysOfMonths] at h
        omega
      obtain ⟨passed, found, dayOfMonth, hmonth, hfound, hlt, hsum⟩ :=
        ih (month + 1) hrest
      refine ⟨passed + 1, found, dayOfMonth, ?_, hfound, hlt, ?_⟩
      · rw [hmonth, Nat.add_assoc, Nat.add_comm 1]
      · rw [daysOfMonths]
        omega

/-- The months up to one that there is are no longer than the year. -/
theorem daysOfMonths_add_le {lengths : List Nat} {passed length : Nat}
    (h : lengths[passed]? = some length) :
    daysOfMonths passed lengths + length ≤
      daysOfMonths lengths.length lengths := by
  induction lengths generalizing passed with
  | nil => cases h
  | cons first rest ih =>
    cases passed with
    | zero =>
        cases h
        simp only [daysOfMonths, List.length_cons]
        omega
    | succ passed =>
        have hrest := ih h
        simp only [daysOfMonths, List.length_cons]
        omega

-- ================================================================= dates

namespace CivilDate

/-- The day of a date that there is lies in its year. -/
theorem toDay_bounds {d : CivilDate} (h : d.isValid = true) :
    daysBeforeYear d.year ≤ d.toDay ∧
      d.toDay < daysBeforeYear (d.year + 1) := by
  unfold isValid at h
  split at h
  · next length hlength =>
    simp only [Bool.and_eq_true, decide_eq_true_eq] at h
    have hmonths := daysOfMonths_add_le hlength
    rw [show (monthLengths (isLeap d.year)).length = 12 from rfl] at hmonths
    rw [daysBeforeYear_succ]
    unfold toDay
    omega
  · cases h

/-- The date of a day: its year, the months that have passed in that year
and the days that have passed in that month. -/
theorem ofDay_spec (n : Int) :
    ∃ passed length dayOfMonth : Nat,
      ofDay n = ⟨yearOfDay n, passed + 1, dayOfMonth + 1⟩ ∧
      (monthLengths (isLeap (yearOfDay n)))[passed]? = some length ∧
      dayOfMonth < length ∧
      daysBeforeYear (yearOfDay n) +
        (daysOfMonths passed (monthLengths (isLeap (yearOfDay n))) +
          dayOfMonth : Nat) = n := by
  obtain ⟨hstart, hnext⟩ := yearOfDay_bounds n
  rw [daysBeforeYear_succ] at hnext
  have hday : (n - daysBeforeYear (yearOfDay n)).toNat < daysOfMonths
      (monthLengths (isLeap (yearOfDay n))).length
      (monthLengths (isLeap (yearOfDay n))) := by
    rw [show (monthLengths (isLeap (yearOfDay n))).length = 12 from rfl]
    omega
  obtain ⟨passed, length, dayOfMonth, hmonth, hlength, hlt, hsum⟩ :=
    monthOfDay_spec 1 hday
  refine ⟨passed, length, dayOfMonth, ?_, hlength, hlt, ?_⟩
  · unfold ofDay
    dsimp only
    rw [hmonth, Nat.add_comm 1]
  · rw [hsum]
    omega

/-- The day of the date of a day is the day. -/
theorem toDay_ofDay (n : Int) : (ofDay n).toDay = n := by
  obtain ⟨passed, length, dayOfMonth, hdate, -, -, hsum⟩ := ofDay_spec n
  rw [hdate]
  exact hsum

theorem isValid_ofDay (n : Int) : (ofDay n).isValid = true := by
  obtain ⟨passed, length, dayOfMonth, hdate, hlength, hlt, -⟩ :=
    ofDay_spec n
  rw [hdate]
  unfold isValid
  simp only [Nat.add_sub_cancel, hlength]
  simp only [Bool.and_eq_true, decide_eq_true_eq]
  omega

/-- The month and the day of a date have two digits. -/
theorem ofDay_lt (n : Int) :
    (ofDay n).month < 100 ∧ (ofDay n).day < 100 := by
  obtain ⟨passed, length, dayOfMonth, hdate, hlength, hlt, -⟩ :=
    ofDay_spec n
  have hmonths : ∀ leap, ∀ l ∈ monthLengths leap, l ≤ 31 := by decide
  have hlong := hmonths _ length (List.mem_of_getElem? hlength)
  obtain ⟨hpassed, -⟩ := List.getElem?_eq_some_iff.1 hlength
  rw [show (monthLengths (isLeap (yearOfDay n))).length = 12 from rfl]
    at hpassed
  rw [hdate]
  constructor
  · show passed + 1 < 100
    omega
  · show dayOfMonth + 1 < 100
    omega

end CivilDate

end ContentProperties.Time
