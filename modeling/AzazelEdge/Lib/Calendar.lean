/-
# The Gregorian calendar

Leap years, the lengths of years and months, and the day a date is, counted from the first day of
year 0 by adding up those lengths (`Date.days`).

The other half is the closed form that programs use for it.  A year is counted from its first of
March, so that the leap day is the last of its year (`Date.days_eq`), and a year is found from a day
of a 400-year era by a division that is corrected for the leap days (`doy_bounds`).
-/
import Mathlib.Data.Nat.Cast.Order.Ring
import Mathlib.Order.Monotone.Basic
import Mathlib.Tactic.IntervalCases
import Mathlib.Tactic.Linarith

namespace AzazelEdge.Lib.Calendar

/-! ## 1. Adding up -/

def isLeap (y : ℕ) : Bool := y % 4 = 0 && (y % 100 ≠ 0 || y % 400 = 0)

def yearLength (y : ℕ) : ℕ := if isLeap y then 366 else 365

/-- The length of month `m` of year `y`. -/
def monthLength (y : ℕ) : ℕ → ℕ
  | 2 => if isLeap y then 29 else 28
  | 4 | 6 | 9 | 11 => 30
  | 1 | 3 | 5 | 7 | 8 | 10 | 12 => 31
  | _ => 0

/-- The days of the years before `y`. -/
def daysBeforeYear : ℕ → ℕ
  | 0 => 0
  | y + 1 => daysBeforeYear y + yearLength y

/-- The days of the months of `y` before month `m`. -/
def daysBeforeMonth (y : ℕ) : ℕ → ℕ
  | 0 => 0
  | m + 1 => daysBeforeMonth y m + monthLength y m

/-- An existing date. -/
structure Date where
  year : ℕ
  month : ℕ
  day : ℕ
  month_pos : 1 ≤ month
  month_le : month ≤ 12
  day_pos : 1 ≤ day
  day_le : day ≤ monthLength year month
deriving DecidableEq

/-- The days before a date, from the first day of year 0. -/
def Date.days (d : Date) : ℕ :=
  daysBeforeYear d.year + daysBeforeMonth d.year d.month + (d.day - 1)

theorem monthLength_le (y m : ℕ) : monthLength y m ≤ 31 := by
  unfold monthLength
  split
  · split_ifs <;> omega
  all_goals omega

theorem Date.day_le_31 (d : Date) : d.day ≤ 31 := d.day_le.trans (monthLength_le _ _)

theorem daysBeforeYear_mono : Monotone daysBeforeYear :=
  monotone_nat_of_le_succ fun y => by rw [daysBeforeYear]; omega

/-- A date lies in its year or after it begins. -/
theorem Date.daysBeforeYear_le (d : Date) : daysBeforeYear d.year ≤ d.days := by
  rw [Date.days]
  omega

/-! ## 2. Years from March -/

/-- The days from the first of March of year 0 to that of year `y`. -/
def marchDays (y : ℤ) : ℤ := 365 * y + y / 4 - y / 100 + y / 400

/-- The days from a first of March to the first of the month that follows it after `mp` months. -/
def marchMonth (mp : ℤ) : ℤ := (153 * mp + 2) / 5

/-- The year of a date whose years begin in March. -/
def marchYear (y m : ℤ) : ℤ := if m ≤ 2 then y - 1 else y

/-- The years before `y`, in one step. -/
theorem daysBeforeYear_eq (y : ℕ) : (daysBeforeYear y : ℤ) = marchDays (y - 1) + 366 := by
  induction y with
  | zero => rfl
  | succ y ih =>
    rw [daysBeforeYear, yearLength, isLeap, Nat.cast_add, ih]
    unfold marchDays
    by_cases h4 : y % 4 = 0 <;> by_cases h100 : y % 100 = 0 <;> by_cases h400 : y % 400 = 0 <;>
      simp [h4, h100, h400] <;> omega

/-- The first two months lie before a first of March, the others after one. -/
theorem daysBeforeMonth_eq (y : ℕ) {m : ℕ} (hpos : 1 ≤ m) (hle : m ≤ 12) :
    (daysBeforeMonth y m : ℤ) + (if m ≤ 2 then 306 else 0) =
      marchMonth ((m + 9) % 12) + (if m ≤ 2 then 0 else if isLeap y then 60 else 59) := by
  interval_cases m <;> simp only [daysBeforeMonth, monthLength] <;> split_ifs <;>
    simp_all [marchMonth]

theorem marchDays_succ (y : ℕ) :
    marchDays y = marchDays (y - 1) + (if isLeap y then 366 else 365) := by
  have h := daysBeforeYear_eq (y + 1)
  rw [daysBeforeYear, Nat.cast_add, daysBeforeYear_eq, yearLength, Nat.cast_add, Nat.cast_one,
    add_sub_cancel_right] at h
  split_ifs at h ⊢ <;> push_cast at h <;> omega

/-- **The day of a date, in one step.** -/
theorem Date.days_eq (d : Date) :
    (d.days : ℤ) = marchDays (marchYear d.year d.month) + marchMonth ((d.month + 9) % 12) +
      (d.day - 1) + 60 := by
  have hmonth := daysBeforeMonth_eq d.year d.month_pos d.month_le
  have hday := d.day_pos
  have hyear := daysBeforeYear_eq d.year
  have hmarch := marchDays_succ d.year
  rw [Date.days, marchYear]
  push_cast [Nat.cast_sub hday]
  by_cases h : d.month ≤ 2
  · rw [if_pos h, if_pos h] at hmonth
    rw [if_pos (by exact_mod_cast h)]
    omega
  · rw [if_neg h, if_neg h] at hmonth
    rw [if_neg (by exact_mod_cast h)]
    split_ifs at hmonth hmarch <;> omega

/-! ## 3. The year of a day of an era -/

/-- The first day of a year of an era. -/
def yearStart (yoe : ℤ) : ℤ := 365 * yoe + yoe / 4 - yoe / 100

/-- The days of an era up to `doe`, but one for each leap day. -/
def withoutLeaps (doe : ℤ) : ℤ := doe - doe / 1460 + doe / 36524 - doe / 146096

/-- The year of the era that a day of it is in. -/
def yearOfEra (doe : ℤ) : ℤ := withoutLeaps doe / 365

theorem withoutLeaps_mono {a b : ℤ} (h : a ≤ b) : withoutLeaps a ≤ withoutLeaps b := by
  unfold withoutLeaps
  omega

/-- The correction is right on the first day of every year and on the day before it. -/
theorem withoutLeaps_yearStart {yoe : ℤ} (h0 : 0 ≤ yoe) (h : yoe < 400) :
    365 * yoe ≤ withoutLeaps (yearStart yoe) ∧
      (0 < yoe → withoutLeaps (yearStart yoe - 1) < 365 * yoe) := by
  have htable : ∀ y : ℕ, y < 400 → 365 * (y : ℤ) ≤ withoutLeaps (yearStart y) ∧
      (0 < (y : ℤ) → withoutLeaps (yearStart y - 1) < 365 * (y : ℤ)) := by
    decide +kernel
  obtain ⟨n, rfl⟩ := Int.eq_ofNat_of_zero_le h0
  exact htable n (by omega)

theorem yearOfEra_bounds {doe : ℤ} (h0 : 0 ≤ doe) (h : doe < 146097) :
    0 ≤ yearOfEra doe ∧ yearOfEra doe ≤ 399 := by
  unfold yearOfEra withoutLeaps
  omega

/-- **A day of an era is in the year found for it.** -/
theorem doy_bounds {doe : ℤ} (h0 : 0 ≤ doe) (h : doe < 146097) :
    yearStart (yearOfEra doe) ≤ doe ∧
      (yearOfEra doe < 399 → doe < yearStart (yearOfEra doe + 1)) := by
  obtain ⟨hpos, hle⟩ := yearOfEra_bounds h0 h
  have hdef : yearOfEra doe = withoutLeaps doe / 365 := rfl
  generalize yearOfEra doe = yoe at hpos hle hdef ⊢
  constructor
  · by_contra hlt
    have hyoe : 0 < yoe := by
      rcases hpos.lt_or_eq with hyoe | rfl
      · exact hyoe
      · exact absurd h0 hlt
    have hbefore := (withoutLeaps_yearStart hpos (by omega)).2 hyoe
    have := withoutLeaps_mono (show doe ≤ yearStart yoe - 1 by omega)
    omega
  · intro hnext
    have hstart := (withoutLeaps_yearStart (show 0 ≤ yoe + 1 by omega) (by omega)).1
    by_contra hge
    have := withoutLeaps_mono (show yearStart (yoe + 1) ≤ doe by omega)
    omega

theorem doe_le {doe : ℤ} (h0 : 0 ≤ doe) (h : doe < 146097) :
    doe ≤ yearStart (yearOfEra doe) + 365 := by
  have hnext := (doy_bounds h0 h).2
  have hle := (yearOfEra_bounds h0 h).2
  generalize yearOfEra doe = yoe at hnext hle ⊢
  unfold yearStart at hnext ⊢
  omega

/-- The last day of a year from March is the leap day, if there is a last one. -/
theorem isLeap_of_last {y : ℕ} {doe era : ℤ} (h0 : 0 ≤ doe) (h : doe < 146097)
    (hlast : yearStart (yearOfEra doe) + 365 ≤ doe) (hy : (y : ℤ) = yearOfEra doe + era * 400 + 1) :
    isLeap y = true := by
  have hnext := (doy_bounds h0 h).2
  have hle := (yearOfEra_bounds h0 h).2
  generalize yearOfEra doe = yoe at hlast hy hnext hle
  rw [isLeap]
  by_cases hend : yoe = 399
  · have h4 : y % 4 = 0 := by omega
    have h400 : y % 400 = 0 := by omega
    simp [h4, h400]
  · have hstart := hnext (by omega)
    unfold yearStart at hstart hlast
    have hstep : yoe / 4 - yoe / 100 < (yoe + 1) / 4 - (yoe + 1) / 100 := by linarith
    have hmod : (yoe + 1) % 4 = 0 ∧ (yoe + 1) % 100 ≠ 0 := by
      clear hstart hlast hnext hy
      omega
    have h4 : y % 4 = 0 := by omega
    have h100 : y % 100 ≠ 0 := by omega
    simp [h4, h100]

/-- Every era has the same days. -/
theorem marchDays_era (era yoe : ℤ) (h0 : 0 ≤ yoe) (h : yoe < 400) :
    marchDays (yoe + era * 400) = era * 146097 + yearStart yoe := by
  unfold marchDays yearStart
  omega

end AzazelEdge.Lib.Calendar
