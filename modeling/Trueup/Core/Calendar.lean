import Mathlib.Data.Int.ConditionallyCompleteOrder
import Mathlib.Order.Monotone.Basic
import Mathlib.Tactic.IntervalCases
import Mathlib.Tactic.Linarith
import Trueup.Models.Enums

/-! # Calendar months

`datetime.date`, as far as the monthly job needs it: the ordinal of a day, the first day of its
month and the day before it; and `previous_month_bounds` of `jobs/monthly_fee_charge.py`.

Months are numbered through (`monthIndex`); each starts where the one before ended
(`monthStart_succ`), so that two months are the same or have no day in common
(`previousMonthBounds_disjoint`). -/

namespace Trueup.Core

open Trueup.Models

/-- `_is_leap`. -/
def isLeap (year : ℤ) : Bool := year % 4 = 0 ∧ (year % 100 ≠ 0 ∨ year % 400 = 0)

/-- `_days_before_year`: the days before the first of January. -/
def daysBeforeYear (year : ℤ) : ℤ :=
  (year - 1) * 365 + (year - 1) / 4 - (year - 1) / 100 + (year - 1) / 400

/-- `_days_in_month`. -/
def daysInMonth (year month : ℤ) : ℤ :=
  if month = 2 then (if isLeap year then 29 else 28)
  else if month = 4 ∨ month = 6 ∨ month = 9 ∨ month = 11 then 30 else 31

/-- `_DAYS_BEFORE_MONTH`. -/
def daysBeforeMonthTable : List ℤ := [0, 31, 59, 90, 120, 151, 181, 212, 243, 273, 304, 334]

/-- `_days_before_month`. -/
def daysBeforeMonth (year month : ℤ) : ℤ :=
  daysBeforeMonthTable.getD (month - 1).toNat 0 + (if 2 < month ∧ isLeap year then 1 else 0)

/-- A `date`. -/
structure CalendarDate where
  year : ℤ
  month : ℤ
  day : ℤ
  month_mem : 1 ≤ month ∧ month ≤ 12
  day_mem : 1 ≤ day ∧ day ≤ daysInMonth year month

namespace CalendarDate

/-- `toordinal`. -/
def toordinal (d : CalendarDate) : ℤ :=
  daysBeforeYear d.year + daysBeforeMonth d.year d.month + d.day

/-- The day, counted from the epoch. -/
def date (d : CalendarDate) : Date := d.toordinal - 719163

/-- The epoch is the first of January 1970. -/
example : date ⟨1970, 1, 1, by decide, by decide⟩ = 0 := by decide

theorem le_daysInMonth (year month : ℤ) : 28 ≤ daysInMonth year month := by
  unfold daysInMonth
  split_ifs <;> norm_num

/-- `replace(day=1)`. -/
def firstOfMonth (d : CalendarDate) : CalendarDate :=
  { d with day := 1, day_mem := ⟨le_rfl, by have := le_daysInMonth d.year d.month; omega⟩ }

/-- `- timedelta(days=1)`. -/
def dayBefore (d : CalendarDate) : CalendarDate :=
  if hday : 1 < d.day then
    { d with day := d.day - 1, day_mem := by have := d.day_mem; omega }
  else if hmonth : 1 < d.month then
    { year := d.year
      month := d.month - 1
      day := daysInMonth d.year (d.month - 1)
      month_mem := by have := d.month_mem; omega
      day_mem := ⟨by have := le_daysInMonth d.year (d.month - 1); omega, le_rfl⟩ }
  else ⟨d.year - 1, 12, 31, by norm_num, by norm_num [daysInMonth]⟩

theorem daysBeforeMonth_succ (year : ℤ) {month : ℤ} (h : 1 ≤ month) (h' : month < 12) :
    daysBeforeMonth year (month + 1) = daysBeforeMonth year month + daysInMonth year month := by
  unfold daysBeforeMonth daysInMonth
  interval_cases month <;> cases isLeap year <;> decide

theorem daysBeforeYear_succ (year : ℤ) :
    daysBeforeYear (year + 1) = daysBeforeYear year + daysBeforeMonth year 12 + 31 := by
  have htable : daysBeforeMonth year 12 = 334 + (if isLeap year then 1 else 0) := by
    unfold daysBeforeMonth
    cases isLeap year <;> decide
  rw [htable, isLeap, daysBeforeYear, daysBeforeYear]
  by_cases hleap : year % 4 = 0 ∧ (year % 100 ≠ 0 ∨ year % 400 = 0)
  · rw [if_pos (by simpa using hleap)]
    omega
  · rw [if_neg (by simpa using hleap)]
    omega

/-- **The day before** is one ordinal before. -/
theorem toordinal_dayBefore (d : CalendarDate) : d.dayBefore.toordinal = d.toordinal - 1 := by
  have hday := d.day_mem
  have hmonth := d.month_mem
  unfold dayBefore toordinal
  split_ifs with h1 h2
  · linarith
  · have hprevious : 1 ≤ d.month - 1 ∧ d.month - 1 < 12 := by omega
    have hsucc := daysBeforeMonth_succ d.year hprevious.1 hprevious.2
    have hfirst : d.day = 1 := by omega
    rw [sub_add_cancel] at hsucc
    linarith
  · have hsucc := daysBeforeYear_succ (d.year - 1)
    have hfirst : d.day = 1 := by omega
    have hjanuary : d.month = 1 := by omega
    have hzero : daysBeforeMonth d.year 1 = 0 := by
      unfold daysBeforeMonth
      cases isLeap d.year <;> decide
    rw [sub_add_cancel] at hsucc
    rw [hjanuary, hzero]
    linarith

/-! ### The months, numbered through -/

/-- The number of the month: January of the year `0` is month `0`. -/
def monthIndex (d : CalendarDate) : ℤ := 12 * d.year + (d.month - 1)

/-- The first day of a month. -/
def monthStart (index : ℤ) : ℤ :=
  daysBeforeYear (index / 12) + daysBeforeMonth (index / 12) (index % 12 + 1) + 1

theorem monthStart_succ (index : ℤ) :
    monthStart (index + 1) = monthStart index + daysInMonth (index / 12) (index % 12 + 1) := by
  unfold monthStart
  by_cases hlast : index % 12 = 11
  · have hyear : (index + 1) / 12 = index / 12 + 1 := by omega
    have hmonth : (index + 1) % 12 = 0 := by omega
    have hfirst : daysBeforeMonth (index / 12 + 1) (0 + 1) = 0 := by
      unfold daysBeforeMonth
      cases isLeap (index / 12 + 1) <;> decide
    have hdecember : daysInMonth (index / 12) (11 + 1) = 31 := by norm_num [daysInMonth]
    have hsucc := daysBeforeYear_succ (index / 12)
    have hnumber : (11 : ℤ) + 1 = 12 := by norm_num
    rw [hyear, hmonth, hlast, hfirst, hdecember, hnumber]
    linarith
  · have hyear : (index + 1) / 12 = index / 12 := by omega
    have hmonth : (index + 1) % 12 + 1 = index % 12 + 1 + 1 := by omega
    rw [hyear, hmonth, daysBeforeMonth_succ _ (by omega) (by omega)]
    linarith

theorem monthStart_strictMono : StrictMono monthStart := by
  refine strictMono_int_of_lt_succ fun index => ?_
  have hsucc := monthStart_succ index
  have hlength := le_daysInMonth (index / 12) (index % 12 + 1)
  linarith

theorem toordinal_firstOfMonth (d : CalendarDate) :
    d.firstOfMonth.toordinal = monthStart d.monthIndex := by
  have hmonth := d.month_mem
  have hyear : d.monthIndex / 12 = d.year := by unfold monthIndex; omega
  have hindex : d.monthIndex % 12 + 1 = d.month := by unfold monthIndex; omega
  rw [monthStart, hyear, hindex]
  rfl

/-- The day before the first of a month is in the month before. -/
theorem monthIndex_dayBefore_firstOfMonth (d : CalendarDate) :
    d.firstOfMonth.dayBefore.monthIndex = d.monthIndex - 1 := by
  have hmonth := d.month_mem
  unfold dayBefore
  rw [dif_neg (by show ¬ (1 : ℤ) < 1; omega)]
  split_ifs with h
  · unfold monthIndex
    show 12 * d.year + (d.month - 1 - 1) = 12 * d.year + (d.month - 1) - 1
    omega
  · have hjanuary : d.month = 1 := by
      have hfirst : d.firstOfMonth.month = d.month := rfl
      omega
    unfold monthIndex
    show 12 * (d.year - 1) + (12 - 1) = 12 * d.year + (d.month - 1) - 1
    omega

end CalendarDate

open CalendarDate

/-- `previous_month_bounds`. -/
def previousMonthBounds (marketDate : CalendarDate) : Date × Date :=
  let firstOfThisMonth := marketDate.firstOfMonth
  let periodEnd := firstOfThisMonth.dayBefore
  let periodStart := periodEnd.firstOfMonth
  (periodStart.date, periodEnd.date)

theorem previousMonthBounds_eq (marketDate : CalendarDate) :
    previousMonthBounds marketDate =
      (monthStart (marketDate.monthIndex - 1) - 719163,
        monthStart marketDate.monthIndex - 1 - 719163) := by
  unfold previousMonthBounds date
  dsimp only
  rw [toordinal_firstOfMonth, monthIndex_dayBefore_firstOfMonth, toordinal_dayBefore,
    toordinal_firstOfMonth]

/-- **Two billing months** are the same or have no day in common. -/
theorem previousMonthBounds_disjoint (marketDate marketDate' : CalendarDate) {day : Date}
    (h : (previousMonthBounds marketDate).1 ≤ day ∧ day ≤ (previousMonthBounds marketDate).2)
    (h' : (previousMonthBounds marketDate').1 ≤ day ∧ day ≤ (previousMonthBounds marketDate').2) :
    previousMonthBounds marketDate = previousMonthBounds marketDate' := by
  rw [previousMonthBounds_eq] at h h' ⊢
  rw [previousMonthBounds_eq]
  suffices hsame : marketDate.monthIndex = marketDate'.monthIndex by rw [hsame]
  rcases lt_trichotomy marketDate.monthIndex marketDate'.monthIndex with hlt | heq | hgt
  · have hle : monthStart marketDate.monthIndex ≤ monthStart (marketDate'.monthIndex - 1) :=
      monthStart_strictMono.monotone (by omega)
    dsimp only at h h'
    linarith
  · exact heq
  · have hle : monthStart marketDate'.monthIndex ≤ monthStart (marketDate.monthIndex - 1) :=
      monthStart_strictMono.monotone (by omega)
    dsimp only at h h'
    linarith

/-- In March of a leap year, February is billed. -/
example : previousMonthBounds ⟨2028, 3, 15, by decide, by decide⟩ =
    (date ⟨2028, 2, 1, by decide, by decide⟩,
      date ⟨2028, 2, 29, by decide, by decide⟩) := by
  decide

end Trueup.Core
