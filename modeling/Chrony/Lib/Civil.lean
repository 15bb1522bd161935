import Mathlib.Algebra.Order.Ring.Int
import Mathlib.Tactic.Linarith

/-!
# Civil Dates

Dates of the Gregorian calendar, before and after its introduction, and the number of days
since 1 January 1970. The conversion from a number of days works in cycles of 400 years
which start in March, so that a leap day is the last day of its year.

## Main results

* `days_ofDays`: the conversion gives the date of the day.
-/

namespace Chrony.Lib.Civil

/-- A date. Months and days are counted from one. -/
structure Date where
  year : ℤ
  month : ℤ
  day : ℤ
  deriving DecidableEq, Repr

/-- The day that is added to a leap year. -/
def leapDay (year : ℤ) : ℤ :=
  if year % 4 = 0 ∧ (year % 100 ≠ 0 ∨ year % 400 = 0) then 1 else 0

/-- The number of days from 1970 to the start of a year. -/
def daysBeforeYear (year : ℤ) : ℤ :=
  365 * (year - 1970) + (year - 1) / 4 - (year - 1) / 100 + (year - 1) / 400 - 477

/-- The number of days before a month in its year. -/
def daysBeforeMonth (year month : ℤ) : ℤ :=
  if month ≤ 2 then 31 * (month - 1) else (153 * (month - 3) + 2) / 5 + 59 + leapDay year

/-- The number of days from 1 January 1970. -/
def Date.days (d : Date) : ℤ :=
  daysBeforeYear d.year + daysBeforeMonth d.year d.month + (d.day - 1)

/-- The year in a cycle, for a day of the cycle: from the century, the four years in it, and
the year of these. The last century and the last of four years may be a day longer. -/
def yearOfCycle (day : ℤ) : ℤ :=
  let century := min (day / 36524) 3
  let rest := day - 36524 * century
  100 * century + 4 * (rest / 1461) + min (rest % 1461 / 365) 3

/-- The number of days before a year of a cycle. -/
def daysInCycle (year : ℤ) : ℤ :=
  365 * year + year / 4 - year / 100

/-- The date of a day which is given by the number of days from 1 January 1970. -/
def ofDays (days : ℤ) : Date :=
  let shifted := days + 719468
  let cycle := shifted / 146097
  let year := yearOfCycle (shifted % 146097)
  let day := shifted % 146097 - daysInCycle year
  let month := (5 * day + 2) / 153
  { year := if month < 10 then year + 400 * cycle else year + 400 * cycle + 1
    month := if month < 10 then month + 3 else month - 9
    day := day - (153 * month + 2) / 5 + 1 }

/-- The days before a year, by its century and the four years in it. -/
theorem daysInCycle_split {century four year : ℤ} (hfour : 0 ≤ four ∧ four < 25)
    (hyear : 0 ≤ year ∧ year < 4) :
    daysInCycle (100 * century + 4 * four + year) =
      36524 * century + 1461 * four + 365 * year := by
  rw [daysInCycle]
  omega

/-- The day is in the year which is found for it. -/
theorem yearOfCycle_spec {day : ℤ} (hlow : 0 ≤ day) (hhigh : day < 146097) :
    0 ≤ yearOfCycle day ∧ yearOfCycle day < 400 ∧
      0 ≤ day - daysInCycle (yearOfCycle day) ∧ day - daysInCycle (yearOfCycle day) < 366 := by
  rw [yearOfCycle]
  have hcentury : 0 ≤ min (day / 36524) 3 ∧ min (day / 36524) 3 ≤ 3 ∧
      0 ≤ day - 36524 * min (day / 36524) 3 ∧ day - 36524 * min (day / 36524) 3 < 36525 := by
    omega
  generalize min (day / 36524) 3 = century at *
  generalize hrest : day - 36524 * century = rest at *
  rw [daysInCycle_split (by omega) (by omega)]
  omega

/-- The days before March of a year, in its cycle. -/
theorem daysBeforeYear_cycle {year : ℤ} (hlow : 0 ≤ year) (hhigh : year < 400) (cycle : ℤ) :
    daysBeforeYear (year + 400 * cycle) + 59 + leapDay (year + 400 * cycle) =
      146097 * cycle + daysInCycle year - 719468 := by
  rw [daysBeforeYear, leapDay, daysInCycle]
  split
  · omega
  · omega

/-- **The date of a day** is that day. -/
theorem days_ofDays (days : ℤ) : (ofDays days).days = days := by
  have hlow : 0 ≤ (days + 719468) % 146097 := Int.emod_nonneg _ (by decide)
  have hhigh : (days + 719468) % 146097 < 146097 := Int.emod_lt_of_pos _ (by decide)
  have hcycle : 146097 * ((days + 719468) / 146097) + (days + 719468) % 146097 = days + 719468 :=
    Int.mul_ediv_add_emod _ _
  rw [ofDays, Date.days]
  dsimp only
  generalize (days + 719468) / 146097 = cycle at *
  generalize (days + 719468) % 146097 = rest at *
  obtain ⟨hyear, hyear', hday, hday'⟩ := yearOfCycle_spec hlow hhigh
  generalize yearOfCycle rest = year at *
  have hbefore := daysBeforeYear_cycle hyear hyear' cycle
  split
  next hmonth =>
      rw [daysBeforeMonth, if_neg (by omega)]
      omega
  next hmonth =>
      have hnext : daysBeforeYear (year + 400 * cycle + 1) =
          daysBeforeYear (year + 400 * cycle) + 365 + leapDay (year + 400 * cycle) := by
        rw [daysBeforeYear, daysBeforeYear, leapDay]
        split
        · omega
        · omega
      rw [daysBeforeMonth, if_pos (by omega), hnext]
      omega

end Chrony.Lib.Civil
