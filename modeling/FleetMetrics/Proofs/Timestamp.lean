import Mathlib
import FleetMetrics.Proofs.Message.Parts
import FleetMetrics.Timestamp

/-!
# Two ways from nanoseconds to seconds

A timestamp is cut down to a second twice. Its text shows the second that it lies in
(`Timestamp.shown`), while `Timestamp.seconds`, by which values are filed, cuts off toward the start
of 1970. From then on the two are one number. Before it they differ by one, unless the time is a
whole second (`Timestamp.seconds_eq`). Both grow with time, but the one that cuts off toward zero
takes two seconds for its zero, the last before 1970 and the first after.

That the text shows a second, and not less, rests on the calendar: different days are different
dates, and a number of a fixed width can be read back from its digits. Years are written with four
digits, which is enough for all times that a message can carry.

Main results:

* `civilDate_injective` — the calendar names every day differently.
* `clock_eq_iff` — two texts agree up to the second if and only if the seconds do.
* `seconds_eq` — how the two cuts differ.
* `seconds_of_apart` — times a second apart, on one side of 1970 and across it.
-/

namespace FleetMetrics.Timestamp

/-- The second that a time lies in. -/
def shown (t : Timestamp) : Int :=
  t.nanos.fdiv second

/-- A time before 1970 that is not a whole second. -/
def Early (t : Timestamp) : Prop :=
  t.nanos < 0 ∧ t.nanos % second ≠ 0

instance (t : Timestamp) : Decidable t.Early :=
  inferInstanceAs (Decidable (_ ∧ _))

/-- The text of a time up to the second. -/
def clock (s : Int) : String :=
  let (year, month, day) := civilDate (s.fdiv 86400)
  let time := s.fmod 86400
  padded 4 year ++ "-" ++ padded 2 month ++ "-" ++ padded 2 day ++ "T" ++ padded 2 (time / 3600) ++
    ":" ++ padded 2 (time / 60 % 60) ++ ":" ++ padded 2 (time % 60)

/-- The text of a time is that of its second, and the milliseconds. -/
theorem text_eq (t : Timestamp) :
    t.text = clock t.shown ++ "." ++ padded 3 (t.nanos.fmod second / 1000000) ++ "Z" := rfl

/-! ## The two cuts -/

/-- The two cuts agree on times since 1970 and on whole seconds. -/
theorem early_iff {t : Timestamp} : t.Early ↔ ¬ (0 ≤ t.nanos ∨ second ∣ t.nanos) := by
  rw [Early, Int.dvd_iff_emod_eq_zero, not_or, not_le]

/-- **How the two cuts differ.** -/
theorem seconds_eq (t : Timestamp) : t.seconds = t.shown + if t.Early then 1 else 0 := by
  rw [seconds, shown, Int.tdiv_eq_ediv, Int.fdiv_eq_ediv_of_nonneg _ (by decide)]
  by_cases hCut : 0 ≤ t.nanos ∨ second ∣ t.nanos
  · rw [if_pos hCut, if_neg fun h => early_iff.mp h hCut]
  · rw [if_neg hCut, if_pos (early_iff.mpr hCut)]
    rfl

/-- Later times are not in earlier slots. -/
theorem seconds_mono {t t' : Timestamp} (le : t.nanos ≤ t'.nanos) : t.seconds ≤ t'.seconds :=
  Int.tdiv_le_tdiv (by decide) le

/-- The time lies in its second. -/
theorem shown_bounds (t : Timestamp) :
    t.shown * second ≤ t.nanos ∧ t.nanos < t.shown * second + second := by
  rw [shown, Int.fdiv_eq_ediv_of_nonneg _ (by decide), second]
  omega

/-- Times at least a second apart have different seconds, unless they are less than a second from
the start of 1970 on either side. -/
theorem seconds_of_apart {t t' : Timestamp} (apart : t.nanos + second ≤ t'.nanos) :
    t.seconds < t'.seconds ∨
      t.seconds = 0 ∧ t'.seconds = 0 ∧ -second < t.nanos ∧ t.nanos < 0 ∧ 0 < t'.nanos ∧
        t'.nanos < second := by
  have hShown := t.shown_bounds
  have hShown' := t'.shown_bounds
  rw [seconds_eq, seconds_eq]
  simp only [second] at *
  by_cases hEarly : t.Early
  · have hBefore := hEarly.1
    have hFraction : t.nanos % 1000000000 ≠ 0 := hEarly.2
    rw [if_pos hEarly]
    by_cases hEarly' : t'.Early
    · rw [if_pos hEarly']
      omega
    · rw [if_neg hEarly']
      rw [early_iff, not_not, Int.dvd_iff_emod_eq_zero, second] at hEarly'
      omega
  · rw [if_neg hEarly]
    split <;> omega

/-! ## The calendar -/

/-- The year in an era of 400 years, by the day in it. -/
def yearOfEra (n : Int) : Int :=
  (n - n / 1460 + n / 36524 - n / 146096) / 365

/-- The day in a year that begins in March, by the day in its era. -/
def dayOfYear (n : Int) : Int :=
  n - (365 * yearOfEra n + yearOfEra n / 4 - yearOfEra n / 100)

/-- The number of a month, counted from March. -/
def monthOf (m : Int) : Int :=
  if m < 10 then m + 3 else m - 9

/-- The date of a day goes by the day of its era of 400 years, which starts in March. -/
theorem civilDate_eq (days : Int) :
    civilDate days =
      let n := (days + 719468) % 146097
      let m := (5 * dayOfYear n + 2) / 153
      (yearOfEra n + (days + 719468) / 146097 * 400 + (if monthOf m ≤ 2 then 1 else 0), monthOf m,
        dayOfYear n - (153 * m + 2) / 5 + 1) := by
  rw [← Int.fdiv_eq_ediv_of_nonneg _ (by decide), ← Int.fmod_eq_emod_of_nonneg _ (by decide)]
  rfl

/-- An era has 400 years. -/
theorem yearOfEra_bounds {n : Int} (low : 0 ≤ n) (high : n < 146097) :
    0 ≤ yearOfEra n ∧ yearOfEra n < 400 := by
  unfold yearOfEra
  omega

/-- A year has no more than 366 days. -/
theorem dayOfYear_bounds {n : Int} (low : 0 ≤ n) (high : n < 146097) :
    0 ≤ dayOfYear n ∧ dayOfYear n < 366 := by
  have hYear := yearOfEra_bounds low high
  have hCut : yearOfEra n = (n - n / 1460 + n / 36524 - n / 146096) / 365 := rfl
  unfold dayOfYear
  generalize yearOfEra n = y at *
  have hCenturies : n / 36524 = 0 ∨ n / 36524 = 1 ∨ n / 36524 = 2 ∨ n / 36524 = 3 ∨
      n / 36524 = 4 := by omega
  -- no more leap days have gone by than were taken off
  have hLeap : y / 4 ≤ n / 1460 := by omega
  have hCentury : n / 36524 - n / 146096 ≤ y / 100 := by
    rcases hCenturies with h | h | h | h | h <;> omega
  constructor
  · omega
  · rcases hCenturies with h | h | h | h | h <;> omega

/-- A day in an era is known by its year and the day in the year. -/
theorem eq_of_dayOfYear {n n' : Int} (year : yearOfEra n = yearOfEra n')
    (day : dayOfYear n = dayOfYear n') : n = n' := by
  unfold dayOfYear at day
  rw [year] at day
  omega

/-- **Different days are different dates.** -/
theorem civilDate_injective : Function.Injective civilDate := by
  intro d d' same
  simp only [civilDate_eq, Prod.mk.injEq] at same
  obtain ⟨hYear, hMonth, hDay⟩ := same
  have hLow : ∀ z : Int, 0 ≤ z % 146097 := fun z => Int.emod_nonneg z (by decide)
  have hHigh : ∀ z : Int, z % 146097 < 146097 := fun z => Int.emod_lt_of_pos z (by decide)
  have hYears := yearOfEra_bounds (hLow (d + 719468)) (hHigh _)
  have hYears' := yearOfEra_bounds (hLow (d' + 719468)) (hHigh _)
  have hDays := dayOfYear_bounds (hLow (d + 719468)) (hHigh _)
  have hDays' := dayOfYear_bounds (hLow (d' + 719468)) (hHigh _)
  have hMonths : (5 * dayOfYear ((d + 719468) % 146097) + 2) / 153 =
      (5 * dayOfYear ((d' + 719468) % 146097) + 2) / 153 := by
    unfold monthOf at hMonth
    omega
  rw [hMonths] at hYear hDay
  -- the years agree within the era, and so do the eras
  have hSame : (d + 719468) % 146097 = (d' + 719468) % 146097 :=
    eq_of_dayOfYear (by omega) (by omega)
  omega

/-! ## Digits -/

/-- Zeros fill up the digits of a number. -/
theorem toList_padded (width : Nat) (n : Int) :
    (padded width n).toList =
      List.replicate (width - (Nat.toDigits 10 n.natAbs).length) '0' ++
        Nat.toDigits 10 n.natAbs := by
  have hDigits : (toString n.natAbs).toList = Nat.toDigits 10 n.natAbs := Nat.toList_repr
  rw [padded, String.toList_append, String.toList_ofList, hDigits, ← hDigits, String.length_toList]

/-- A number that fits has as many characters as it is padded to. -/
theorem length_padded {width : Nat} {n : Int} (positive : 0 < width)
    (fits : n.natAbs < 10 ^ width) : (padded width n).toList.length = width := by
  have hLength := (Nat.length_toDigits_le_iff (b := 10) (by decide) positive).mpr fits
  rw [toList_padded, List.length_append, List.length_replicate]
  omega

/-- Zeros in front do not change the number. -/
theorem ofDigitChars_zeros (k : Nat) : Nat.ofDigitChars 10 (List.replicate k '0') 0 = 0 := by
  induction k with
  | zero => rfl
  | succ k ih =>
    rw [List.replicate_succ]
    exact ih

/-- A number is read back from its digits. -/
theorem ofDigitChars_padded (width : Nat) (n : Int) :
    Nat.ofDigitChars 10 (padded width n).toList 0 = n.natAbs := by
  rw [toList_padded, Nat.ofDigitChars_append, ofDigitChars_zeros, Nat.ofDigitChars_ten_toDigits]

/-- Of two texts that start with numbers of the same width, the numbers and the rests agree. -/
theorem padded_append_inj {width : Nat} {n n' : Int} {rest rest' : List Char}
    (positive : 0 < width) (range : 0 ≤ n ∧ n < 10 ^ width) (range' : 0 ≤ n' ∧ n' < 10 ^ width)
    (same : (padded width n).toList ++ rest = (padded width n').toList ++ rest') :
    n = n' ∧ rest = rest' := by
  have hFits : n.natAbs < 10 ^ width := by
    zify
    rw [abs_of_nonneg range.1]
    exact range.2
  have hFits' : n'.natAbs < 10 ^ width := by
    zify
    rw [abs_of_nonneg range'.1]
    exact range'.2
  obtain ⟨hNumber, hRest⟩ := List.append_inj same
    ((length_padded positive hFits).trans (length_padded positive hFits').symm)
  have hAbs : n.natAbs = n'.natAbs := by
    rw [← ofDigitChars_padded width n, ← ofDigitChars_padded width n', hNumber]
  exact ⟨by omega, hRest⟩

/-! ## Texts -/

/-- The date of a time that a message can carry has four digits and twice two. -/
theorem civilDate_bounds {days : Int} (low : -106752 ≤ days) (high : days ≤ 106751) :
    (0 ≤ (civilDate days).1 ∧ (civilDate days).1 < 10 ^ 4) ∧
      (0 ≤ (civilDate days).2.1 ∧ (civilDate days).2.1 < 10 ^ 2) ∧
      0 ≤ (civilDate days).2.2 ∧ (civilDate days).2.2 < 10 ^ 2 := by
  have hLow : 0 ≤ (days + 719468) % 146097 := Int.emod_nonneg _ (by decide)
  have hHigh : (days + 719468) % 146097 < 146097 := Int.emod_lt_of_pos _ (by decide)
  have hYear := yearOfEra_bounds hLow hHigh
  have hDay := dayOfYear_bounds hLow hHigh
  simp only [civilDate_eq, monthOf]
  omega

/-- The days that messages can carry. -/
theorem day_bounds {t : Timestamp} (valid : t.Valid) :
    -106752 ≤ t.shown.fdiv 86400 ∧ t.shown.fdiv 86400 ≤ 106751 := by
  have hLimits : lowest = -9223372036854775808 ∧ beyond = 9223372036854775808 := by decide
  have hShown := t.shown_bounds
  obtain ⟨hLowest, hBeyond⟩ := valid
  simp only [second] at hShown
  rw [Int.fdiv_eq_ediv_of_nonneg _ (by decide)]
  omega

/-- Hours, minutes and seconds have two digits each. -/
theorem timeOfDay_bounds (s : Int) :
    (0 ≤ s.fmod 86400 / 3600 ∧ s.fmod 86400 / 3600 < 10 ^ 2) ∧
      (0 ≤ s.fmod 86400 / 60 % 60 ∧ s.fmod 86400 / 60 % 60 < 10 ^ 2) ∧
      0 ≤ s.fmod 86400 % 60 ∧ s.fmod 86400 % 60 < 10 ^ 2 := by
  have hLow : 0 ≤ s.fmod 86400 := Int.fmod_nonneg_of_pos s (by decide)
  have hHigh : s.fmod 86400 < 86400 := Int.fmod_lt_of_pos s (by decide)
  omega

/-- **What a text shows.** The texts of two times that messages can carry agree up to the second if
and only if the times lie in one second. -/
theorem clock_eq_iff {t t' : Timestamp} (valid : t.Valid) (valid' : t'.Valid) :
    clock t.shown = clock t'.shown ↔ t.shown = t'.shown := by
  refine ⟨fun same => ?_, congrArg clock⟩
  obtain ⟨hYear, hMonth, hDay⟩ := civilDate_bounds (day_bounds valid).1 (day_bounds valid).2
  obtain ⟨hYear', hMonth', hDay'⟩ := civilDate_bounds (day_bounds valid').1 (day_bounds valid').2
  obtain ⟨hHour, hMinute, hSecond⟩ := timeOfDay_bounds t.shown
  obtain ⟨hHour', hMinute', hSecond'⟩ := timeOfDay_bounds t'.shown
  have hLists := congrArg String.toList same
  simp only [clock, String.toList_append, List.append_assoc] at hLists
  -- number by number, each with its separator
  obtain ⟨hSameYear, hLists⟩ := padded_append_inj (by decide) hYear hYear' hLists
  obtain ⟨hSameMonth, hLists⟩ := padded_append_inj (by decide) hMonth hMonth'
    (List.append_cancel_left hLists)
  obtain ⟨hSameDay, hLists⟩ := padded_append_inj (by decide) hDay hDay'
    (List.append_cancel_left hLists)
  obtain ⟨hSameHour, hLists⟩ := padded_append_inj (by decide) hHour hHour'
    (List.append_cancel_left hLists)
  obtain ⟨hSameMinute, hLists⟩ := padded_append_inj (by decide) hMinute hMinute'
    (List.append_cancel_left hLists)
  have hSameSecond := (padded_append_inj (by decide) hSecond hSecond'
    (congrArg (· ++ []) (List.append_cancel_left hLists))).1
  have hDate : t.shown.fdiv 86400 = t'.shown.fdiv 86400 :=
    civilDate_injective (Prod.ext hSameYear (Prod.ext hSameMonth hSameDay))
  have hTime : t.shown.fmod 86400 = t'.shown.fmod 86400 := by omega
  rw [← Int.fmod_add_mul_fdiv t.shown 86400, ← Int.fmod_add_mul_fdiv t'.shown 86400, hDate, hTime]

end FleetMetrics.Timestamp
