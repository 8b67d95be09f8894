/-
  The proleptic Gregorian calendar: the lengths of its months and years, and the days since 1970-01-01.

  `dayNumber y m d` COUNTS: it adds up the years since 1970, the months of the year and the days of the
  month, and knows no formula.  This file names no program; it carries

  1. **Counting** — `daysInMonth`, `daysInYear`, `dayNumber`, `unixSeconds`.
  2. **Years that begin in March** — the leap day is then the LAST day of its year, so that the months
     before a date do not depend on it: `dayNumber_march` is the count in closed form.
-/
import Mathlib

namespace Gregorian

/-! ## Counting -/

def isLeap (y : Int) : Bool := decide (y % 4 = 0 ∧ (y % 100 ≠ 0 ∨ y % 400 = 0))

def daysInYear (y : Int) : Int := if isLeap y then 366 else 365

def daysInMonth (y : Int) (m : Nat) : Nat :=
  if m = 2 then if isLeap y then 29 else 28
  else if m = 4 ∨ m = 6 ∨ m = 9 ∨ m = 11 then 30
  else 31

/-- The days from 1970-01-01 to the first of January of `y`. -/
def daysBeforeYear (y : Int) : Int := ∑ i ∈ Finset.range (y - 1970).toNat, daysInYear (1970 + i)

/-- The days of the year before the first of `m`. -/
def daysBeforeMonth (y : Int) (m : Nat) : Nat := ∑ k ∈ Finset.Ico 1 m, daysInMonth y k

/-- The days from 1970-01-01 to a later date. -/
def dayNumber (y : Int) (m d : Nat) : Int := daysBeforeYear y + daysBeforeMonth y m + (d - 1)

/-- The seconds from 1970-01-01T00:00:00 to a later date and time. -/
def unixSeconds (y : Int) (m d h mi s : Nat) : Int :=
  ((dayNumber y m d * 24 + h) * 60 + mi) * 60 + s

/-! ## Leap years -/

/-- How many leap years there are up to `y`, counted from the year 0. -/
def leaps (y : Int) : Int := y / 4 - y / 100 + y / 400

theorem isLeap_iff {y : Int} : isLeap y = true ↔ y % 4 = 0 ∧ (y % 100 ≠ 0 ∨ y % 400 = 0) :=
  decide_eq_true_iff

theorem daysInYear_eq (y : Int) : daysInYear y = 365 + leaps y - leaps (y - 1) := by
  unfold daysInYear leaps
  split
  · rename_i hleap
    rw [isLeap_iff] at hleap
    omega
  · rename_i hcommon
    rw [isLeap_iff] at hcommon
    omega

theorem daysBeforeYear_eq {y : Int} (h : 1970 ≤ y) :
    daysBeforeYear y = 365 * (y - 1970) + leaps (y - 1) - 477 := by
  obtain ⟨n, rfl⟩ := Int.le.dest h
  rw [daysBeforeYear, add_sub_cancel_left, Int.toNat_natCast]
  induction n with
  | zero => rfl
  | succ n ih =>
    have hyear := daysInYear_eq (1970 + n)
    have hlast : (1970 : Int) + (n + 1 : Nat) - 1 = 1970 + n := by omega
    rw [Finset.sum_range_succ, ih (Int.le_add_of_nonneg_right (Int.natCast_nonneg n)), hyear, hlast]
    omega

/-! ## Years that begin in March -/

/-- The days before the `mp`-th month of a year that begins in March. -/
def marchDays (mp : Nat) : Nat := (153 * mp + 2) / 5

/-- The month of the common calendar. -/
def monthOf (mp : Nat) : Nat := if mp < 10 then mp + 3 else mp - 9

/-- The year of the common calendar: January and February belong to the next one. -/
def yearOf (Y : Int) (mp : Nat) : Int := if mp < 10 then Y else Y + 1

/-- The lengths of the months are the steps of `marchDays`, but for February. -/
theorem daysInMonth_march (Y : Int) {mp : Nat} (h : mp < 11) :
    daysInMonth (yearOf Y mp) (monthOf mp) = marchDays (mp + 1) - marchDays mp := by
  interval_cases mp <;> rfl

theorem daysBeforeMonth_march (Y : Int) {mp : Nat} (h : mp < 10) :
    (daysBeforeMonth Y (mp + 3) : Int) = 59 + (leaps Y - leaps (Y - 1)) + marchDays mp := by
  induction mp with
  | zero =>
    have hyear := daysInYear_eq Y
    have hfebruary : daysBeforeMonth Y (0 + 3) = 31 + daysInMonth Y 2 := rfl
    rw [hfebruary, daysInMonth, if_pos rfl]
    rw [daysInYear] at hyear
    show _ = 59 + (leaps Y - leaps (Y - 1)) + (0 : Nat)
    split at hyear
    · rename_i hleap
      rw [if_pos hleap]
      omega
    · rename_i hcommon
      rw [if_neg hcommon]
      omega
  | succ mp ih =>
    have hmonth := daysInMonth_march Y (show mp < 11 by omega)
    rw [yearOf, monthOf, if_pos (by omega), if_pos (by omega)] at hmonth
    have hsum : daysBeforeMonth Y (mp + 1 + 3) = daysBeforeMonth Y (mp + 3) + daysInMonth Y (mp + 3) :=
      Finset.sum_Ico_succ_top (by omega) _
    have hfront := ih (by omega)
    rw [hsum, hmonth]
    unfold marchDays at hfront ⊢
    omega

/-- **The count in closed form**, for the `d`-th of the `mp`-th month of a year that begins in March. -/
theorem dayNumber_march {Y : Int} {mp : Nat} (d : Nat) (hmp : mp < 12)
    (hY : 1970 ≤ yearOf Y mp) :
    dayNumber (yearOf Y mp) (monthOf mp) d =
      365 * Y + leaps Y + marchDays mp + (d - 1) - 719468 := by
  unfold dayNumber
  rw [daysBeforeYear_eq hY]
  by_cases hmarch : mp < 10
  · rw [yearOf, monthOf, if_pos hmarch, if_pos hmarch, daysBeforeMonth_march Y hmarch]
    omega
  · -- January and February are the last months, and the leap day is behind them
    have hbefore : (daysBeforeMonth (Y + 1) (mp - 9) : Int) = marchDays mp - 306 := by
      obtain rfl | rfl : mp = 10 ∨ mp = 11 := by omega
      · rfl
      · rfl
    rw [yearOf, monthOf, if_neg hmarch, if_neg hmarch, hbefore, Int.add_sub_cancel]
    omega

end Gregorian
