import Mathlib.Data.Int.Order.Basic
import Mathlib.Tactic.Ring

/-!
# Lib.Calendar

The Gregorian calendar over all days, numbered from 1 January 1970: years, months and ISO weeks.
A year is found from an estimate by the mean length of a year, which is off by at most one.
-/

namespace Calendar

/-! ## Years -/

/-- The first day of a year. -/
def dayFromYear (y : Int) : Int :=
  365 * (y - 1970) + (y - 1969) / 4 - (y - 1901) / 100 + (y - 1601) / 400

def IsLeapYear (y : Int) : Prop := y % 4 = 0 ∧ (y % 100 ≠ 0 ∨ y % 400 = 0)

instance (y : Int) : Decidable (IsLeapYear y) := inferInstanceAs (Decidable (_ ∧ _))

theorem dayFromYear_succ (y : Int) :
    dayFromYear (y + 1) = dayFromYear y + if IsLeapYear y then 366 else 365 := by
  by_cases h : IsLeapYear y
  · rw [if_pos h]
    unfold IsLeapYear at h
    unfold dayFromYear
    omega
  · rw [if_neg h]
    unfold IsLeapYear at h
    unfold dayFromYear
    omega

theorem dayFromYear_add_le {y z : Int} (h : y ≤ z) : dayFromYear y + 365 * (z - y) ≤ dayFromYear z := by
  induction z, h using Int.leInduction with
  | base => omega
  | succ z _ ih =>
    rw [dayFromYear_succ]
    split <;> omega

theorem dayFromYear_le {y z : Int} (h : y ≤ z) : dayFromYear y ≤ dayFromYear z := by
  have := dayFromYear_add_le h
  omega

/-- The year of a day. -/
def yearFromDay (d : Int) : Int :=
  let estimate := 1970 + 400 * d / 146097
  if d < dayFromYear estimate then estimate - 1
  else if dayFromYear (estimate + 1) ≤ d then estimate + 1
  else estimate

theorem dayFromYear_mean (y : Int) :
    146097 * (y - 1970) - 700 ≤ 400 * dayFromYear y ∧
      400 * dayFromYear y ≤ 146097 * (y - 1970) + 700 := by
  unfold dayFromYear
  omega

theorem yearFromDay_spec (d : Int) :
    dayFromYear (yearFromDay d) ≤ d ∧ d < dayFromYear (yearFromDay d + 1) := by
  obtain ⟨e, he⟩ : ∃ e, e = 1970 + 400 * d / 146097 := ⟨_, rfl⟩
  have hmean := dayFromYear_mean e
  have hmean' := dayFromYear_mean (e + 1)
  have hbefore := dayFromYear_add_le (y := e - 1) (z := e) (by omega)
  have hafter := dayFromYear_add_le (y := e + 1) (z := e + 1 + 1) (by omega)
  simp only [yearFromDay, ← he]
  split
  · rw [Int.sub_add_cancel]
    omega
  · split <;> omega

theorem yearFromDay_unique {y d : Int} (hlow : dayFromYear y ≤ d) (hhigh : d < dayFromYear (y + 1)) :
    yearFromDay d = y := by
  obtain ⟨hlow', hhigh'⟩ := yearFromDay_spec d
  rcases Int.lt_trichotomy (yearFromDay d) y with h | h | h
  · have := dayFromYear_le (y := yearFromDay d + 1) (z := y) (by omega)
    omega
  · exact h
  · have := dayFromYear_le (y := y + 1) (z := yearFromDay d) (by omega)
    omega

theorem yearFromDay_dayFromYear (y : Int) : yearFromDay (dayFromYear y) = y := by
  refine yearFromDay_unique (Int.le_refl _) ?_
  have := dayFromYear_add_le (y := y) (z := y + 1) (by omega)
  omega

theorem yearFromDay_mono {a b : Int} (h : a ≤ b) : yearFromDay a ≤ yearFromDay b := by
  by_contra hlt
  obtain ⟨hlow, _⟩ := yearFromDay_spec a
  obtain ⟨_, hhigh⟩ := yearFromDay_spec b
  have := dayFromYear_le (y := yearFromDay b + 1) (z := yearFromDay a) (by omega)
  omega

/-! ## Months -/

/-- The days of a year before a month, which is counted from 0. -/
def monthStart (leap : Bool) (month : Int) : Int :=
  let days := if month ≤ 0 then 0 else if month = 1 then 31 else if month = 2 then 59
    else if month = 3 then 90 else if month = 4 then 120 else if month = 5 then 151
    else if month = 6 then 181 else if month = 7 then 212 else if month = 8 then 243
    else if month = 9 then 273 else if month = 10 then 304 else 334
  if leap = true ∧ 2 ≤ month then days + 1 else days

/-- The day of a year, counted from 0. -/
def dayWithinYear (d : Int) : Int := d - dayFromYear (yearFromDay d)

def inLeapYear (d : Int) : Bool := decide (IsLeapYear (yearFromDay d))

/-- The number of later months that have begun. -/
def monthFromDay (d : Int) : Int :=
  ([1, 2, 3, 4, 5, 6, 7, 8, 9, 10, 11].filter fun month =>
    monthStart (inLeapYear d) month ≤ dayWithinYear d).length

theorem monthFromDay_bounds (d : Int) : 0 ≤ monthFromDay d ∧ monthFromDay d ≤ 11 := by
  have hlength := List.length_filter_le (fun month =>
    decide (monthStart (inLeapYear d) month ≤ dayWithinYear d)) [1, 2, 3, 4, 5, 6, 7, 8, 9, 10, 11]
  simp only [List.length_cons, List.length_nil] at hlength
  unfold monthFromDay
  omega

/-- The day of a month, counted from 1. -/
def dateFromDay (d : Int) : Int :=
  dayWithinYear d - monthStart (inLeapYear d) (monthFromDay d) + 1

/-- The day with the year, the month and the date; the date may lie outside the month. -/
def makeDay (year month date : Int) : Int :=
  let y := year + month / 12
  dayFromYear y + monthStart (decide (IsLeapYear y)) (month % 12) + date - 1

theorem makeDay_fromDay (d : Int) (n : Int) :
    makeDay (yearFromDay d) (monthFromDay d) (dateFromDay d + n) = d + n := by
  obtain ⟨hlow, hhigh⟩ := monthFromDay_bounds d
  have hyears : monthFromDay d / 12 = 0 := by omega
  have hmonth : monthFromDay d % 12 = monthFromDay d := by omega
  simp only [makeDay, hyears, hmonth, Int.add_zero, dateFromDay, dayWithinYear, inLeapYear]
  omega

/-! ## Weeks -/

/-- Sunday is 0. -/
def weekDay (d : Int) : Int := (d + 4) % 7

/-- The Monday a week begins with. -/
def mondayOf (d : Int) : Int := d - (d + 3) % 7

/-- A week belongs to the year of its Thursday. -/
def isoYear (d : Int) : Int := yearFromDay (mondayOf d + 3)

def isoWeek (d : Int) : Int := (mondayOf d + 3 - dayFromYear (isoYear d)) / 7 + 1

theorem mondayOf_bounds (d : Int) : mondayOf d ≤ d ∧ d ≤ mondayOf d + 6 := by
  unfold mondayOf
  omega

theorem mondayOf_mod (d : Int) : mondayOf d % 7 = 4 := by
  unfold mondayOf
  omega

theorem mondayOf_eq_iff {a b : Int} : mondayOf a = mondayOf b ↔ mondayOf b ≤ a ∧ a ≤ mondayOf b + 6 := by
  unfold mondayOf
  omega

/-- The year and the number of a week tell which week it is. -/
theorem mondayOf_eq {a b : Int} (hyear : isoYear a = isoYear b) (hweek : isoWeek a = isoWeek b) :
    mondayOf a = mondayOf b := by
  have ha := mondayOf_mod a
  have hb := mondayOf_mod b
  unfold isoWeek at hweek
  rw [hyear] at hweek
  omega

theorem isoYear_eq {a b : Int} (h : mondayOf a = mondayOf b) : isoYear a = isoYear b := by
  unfold isoYear
  rw [h]

theorem isoWeek_eq {a b : Int} (h : mondayOf a = mondayOf b) : isoWeek a = isoWeek b := by
  unfold isoWeek
  rw [h, isoYear_eq h]

theorem isoWeek_bounds (d : Int) : 1 ≤ isoWeek d ∧ isoWeek d ≤ 53 := by
  obtain ⟨hlow, hhigh⟩ := yearFromDay_spec (mondayOf d + 3)
  rw [dayFromYear_succ] at hhigh
  unfold isoWeek isoYear
  split at hhigh <;> omega

end Calendar
