/-
  The calendar of the WARP registration (`civil_from_unix` in `src/warp/register.rs`).

  The service wants the time as text, and the program does without a calendar library: it finds the year
  of a 400-year era and the month of the year by divisions.

  1. **Program** — `civilFromUnix`, on an `i64` that wraps and with the casts to `u32`.

  2. **Correctness (`civilFromUnix_exact`)** — the date is one of the calendar of `Gregorian`, and counting
     from 1970 up to it gives back the seconds.  Two facts carry it.  `EraDay.year_eq`: an era is four
     centuries of 25 cycles of four years, and the three small quotients take away exactly the leap days
     before, so that the last day of a leap year is not the first day of the next one.
     `monthOfYear_spec`: the months from March on begin at `(153 * mp + 2) / 5`.

  3. **Machine numbers** — no step on the way leaves the `i64`, and each is its own integer.
-/
import Httproxy.Lib.Gregorian

namespace Httproxy.Register

open Gregorian

/-! ## Program -/

/-- `i64::div_euclid`. -/
def divEuclid (a b : Int64) : Int64 := .ofInt (a.toInt / b.toInt)

/-- `i64::rem_euclid`. -/
def remEuclid (a b : Int64) : Int64 := .ofInt (a.toInt % b.toInt)

/-- `as u32`. -/
def asU32 (a : Int64) : UInt32 := .ofInt a.toInt

def civilFromUnix (secs : Int64) : Int64 × UInt32 × UInt32 × UInt32 × UInt32 × UInt32 :=
  let days := divEuclid secs 86400
  let rem := remEuclid secs 86400
  let z := days + 719468
  let era := divEuclid z 146097
  let doe := remEuclid z 146097
  let yoe := (doe - doe / 1460 + doe / 36524 - doe / 146096) / 365
  let y := yoe + era * 400
  let doy := doe - (365 * yoe + yoe / 4 - yoe / 100)
  let mp := (5 * doy + 2) / 153
  let d := asU32 (doy - (153 * mp + 2) / 5 + 1)
  let m := asU32 (if mp < 10 then mp + 3 else mp - 9)
  let y := if m ≤ 2 then y + 1 else y
  (y, m, d, asU32 (rem / 3600), asU32 (rem % 3600 / 60), asU32 (rem % 60))

/-! ## The day of an era

  The four digits of a day: the century, the cycle of four years, the year in it and the day of the year,
  all counted from the first of March. -/

structure EraDay (doe c q k s : Int) : Prop where
  sum : doe = 36524 * c + (1461 * q + (365 * k + s))
  century : 0 ≤ c ∧ c < 4
  cycle : 0 ≤ q ∧ q < 25
  year : 0 ≤ k ∧ k < 4
  day : 0 ≤ s ∧ s ≤ 365
  /-- A 366th day ends a cycle, -/
  lastYear : s = 365 → k = 3
  /-- and at the end of a century it is there in the last one only. -/
  lastCentury : s = 365 → q = 24 → c = 3

theorem EraDay.exists {doe : Int} (h0 : 0 ≤ doe) (h : doe < 146097) :
    ∃ c q k s, EraDay doe c q k s := by
  obtain ⟨c, r, hdoe, hc0, hc, hr0, hr, hcentury⟩ : ∃ c r : Int, doe = 36524 * c + r ∧
      0 ≤ c ∧ c < 4 ∧ 0 ≤ r ∧ r ≤ 36524 ∧ (r = 36524 → c = 3) := by
    by_cases hend : doe = 146096
    · exact ⟨3, 36524, by omega, by omega, by omega, by omega, by omega, by omega⟩
    · exact ⟨doe / 36524, doe % 36524, by omega, by omega, by omega, by omega, by omega, by omega⟩
  obtain ⟨q, t, hcycle, hq0, hq, ht0, ht⟩ : ∃ q t : Int, r = 1461 * q + t ∧
      0 ≤ q ∧ q < 25 ∧ 0 ≤ t ∧ t ≤ 1460 :=
    ⟨r / 1461, r % 1461, by omega, by omega, by omega, by omega, by omega⟩
  obtain ⟨k, s, hyear, hk0, hk, hs0, hs, hlast⟩ : ∃ k s : Int, t = 365 * k + s ∧
      0 ≤ k ∧ k < 4 ∧ 0 ≤ s ∧ s ≤ 365 ∧ (s = 365 → k = 3) := by
    by_cases hend : t = 1460
    · exact ⟨3, 365, by omega, by omega, by omega, by omega, by omega, by omega⟩
    · exact ⟨t / 365, t % 365, by omega, by omega, by omega, by omega, by omega, by omega⟩
  refine ⟨c, q, k, s, by rw [hdoe, hcycle, hyear], ⟨hc0, hc⟩, ⟨hq0, hq⟩, ⟨hk0, hk⟩, ⟨hs0, hs⟩,
    hlast, fun hs365 hq24 => hcentury ?_⟩
  rw [hcycle, hyear, hq24, hlast hs365, hs365]
  rfl

def yearOfEra (doe : Int) : Int := (doe - doe / 1460 + doe / 36524 - doe / 146096) / 365

def dayOfYear (doe yoe : Int) : Int := doe - (365 * yoe + yoe / 4 - yoe / 100)

section EraDay
variable {doe c q k s : Int} (day : EraDay doe c q k s)
include day

theorem EraDay.centuries : doe / 36524 - doe / 146096 = c := by
  obtain ⟨rfl, ⟨hc0, hc⟩, ⟨hq0, hq⟩, ⟨hk0, hk⟩, ⟨hs0, hs⟩, hyear, hcentury⟩ := day
  obtain rfl | rfl | rfl | rfl : c = 0 ∨ c = 1 ∨ c = 2 ∨ c = 3 := by omega
  · omega
  · omega
  · omega
  · omega

/-- The leap days before, and one too many where the day is late in its cycle. -/
theorem EraDay.cycles : doe / 1460 = 25 * c + q + (24 * c + q + 365 * k + s) / 1460 := by
  rw [day.sum]
  omega

/-- What is too many moves no day into another year. -/
theorem EraDay.slack :
    0 ≤ s - (24 * c + q + 365 * k + s) / 1460 ∧ s - (24 * c + q + 365 * k + s) / 1460 < 365 := by
  obtain ⟨-, ⟨hc0, hc⟩, ⟨hq0, hq⟩, ⟨hk0, hk⟩, ⟨hs0, hs⟩, hyear, -⟩ := day
  omega

theorem EraDay.year_eq : yearOfEra doe = 100 * c + 4 * q + k := by
  have ⟨hlow, hhigh⟩ := day.slack
  have hsum : doe - doe / 1460 + doe / 36524 - doe / 146096 =
      (s - (24 * c + q + 365 * k + s) / 1460) + 365 * (100 * c + 4 * q + k) := by
    rw [Int.add_sub_assoc, day.centuries, day.cycles, day.sum]
    ring
  rw [yearOfEra, hsum, Int.add_mul_ediv_left _ _ (by decide), Int.ediv_eq_zero_of_lt hlow hhigh,
    Int.zero_add]

theorem EraDay.day_eq : dayOfYear doe (100 * c + 4 * q + k) = s := by
  obtain ⟨rfl, ⟨hc0, hc⟩, ⟨hq0, hq⟩, ⟨hk0, hk⟩, -, -, -⟩ := day
  have hfour : (100 * c + 4 * q + k) / 4 = 25 * c + q := by omega
  have hhundred : (100 * c + 4 * q + k) / 100 = c := by omega
  rw [dayOfYear, hfour, hhundred]
  ring

/-- A year with a 366th day ends in a February of 29 days. -/
theorem EraDay.leap (hs : s = 365) (era : Int) : isLeap (100 * c + 4 * q + k + era * 400 + 1) := by
  have hk3 := day.lastYear hs
  have hc3 := day.lastCentury hs
  obtain ⟨-, ⟨hc0, hc⟩, ⟨hq0, hq⟩, -, -, -, -⟩ := day
  rw [isLeap_iff]
  subst hk3
  omega

/-- The day counted from the first of March of the year 0. -/
theorem EraDay.count (era : Int) :
    era * 146097 + doe = 365 * (100 * c + 4 * q + k + era * 400)
      + leaps (100 * c + 4 * q + k + era * 400) + s := by
  obtain ⟨rfl, ⟨hc0, hc⟩, ⟨hq0, hq⟩, ⟨hk0, hk⟩, -, -, -⟩ := day
  have hfour : (100 * c + 4 * q + k + era * 400) / 4 = 25 * c + q + era * 100 := by omega
  have hhundred : (100 * c + 4 * q + k + era * 400) / 100 = c + era * 4 := by omega
  have hera : (100 * c + 4 * q + k + era * 400) / 400 = era := by omega
  rw [leaps, hfour, hhundred, hera]
  ring

end EraDay

/-! ## The month of a year -/

def monthOfYear (doy : Nat) : Nat := (5 * doy + 2) / 153

theorem monthOfYear_spec {doy : Nat} (h : doy ≤ 365) :
    monthOfYear doy < 12 ∧ marchDays (monthOfYear doy) ≤ doy ∧
      (monthOfYear doy < 11 → doy < marchDays (monthOfYear doy + 1)) := by
  unfold marchDays monthOfYear
  omega

/-- The day of the month is one of the month; the 29th of February is the 366th day. -/
theorem dayOfMonth_le {Y : Int} {doy : Nat} (h : doy ≤ 365) (hleap : doy = 365 → isLeap (Y + 1)) :
    doy - marchDays (monthOfYear doy) + 1 ≤
      daysInMonth (yearOf Y (monthOfYear doy)) (monthOf (monthOfYear doy)) := by
  obtain ⟨hmp, hfrom, hto⟩ := monthOfYear_spec h
  by_cases hfebruary : monthOfYear doy = 11
  · have hbegin : marchDays 11 = 337 := rfl
    rw [hfebruary, hbegin] at hfrom ⊢
    show doy - 337 + 1 ≤ if isLeap (Y + 1) then 29 else 28
    split
    · omega
    · rename_i hcommon
      have hshort : doy ≠ 365 := fun h365 => hcommon (hleap h365)
      omega
  · have hbefore := hto (by omega)
    rw [daysInMonth_march Y (by omega)]
    omega

/-! ## Machine numbers -/

variable {a b : Int64} {x y : Int}

theorem toInt_add (ha : a.toInt = x) (hb : b.toInt = y) (hlow : -2 ^ 63 ≤ x + y) (hhigh : x + y < 2 ^ 63) :
    (a + b).toInt = x + y := by
  rw [Int64.toInt_add, ha, hb]
  exact Int.bmod_eq_of_le hlow hhigh

theorem toInt_sub (ha : a.toInt = x) (hb : b.toInt = y) (hlow : -2 ^ 63 ≤ x - y) (hhigh : x - y < 2 ^ 63) :
    (a - b).toInt = x - y := by
  rw [Int64.toInt_sub, ha, hb]
  exact Int.bmod_eq_of_le hlow hhigh

theorem toInt_mul (ha : a.toInt = x) (hb : b.toInt = y) (hlow : -2 ^ 63 ≤ x * y) (hhigh : x * y < 2 ^ 63) :
    (a * b).toInt = x * y := by
  rw [Int64.toInt_mul, ha, hb]
  exact Int.bmod_eq_of_le hlow hhigh

theorem toInt_div (ha : a.toInt = x) (hb : b.toInt = y) (hx : 0 ≤ x) (hy : 0 < y) :
    (a / b).toInt = x / y := by
  have hneg : b ≠ -1 := by
    rintro rfl
    rw [show (-1 : Int64).toInt = -1 from rfl] at hb
    omega
  rw [Int64.toInt_div_of_ne_right a b hneg, ha, hb, Int.tdiv_eq_ediv_of_nonneg hx]

theorem toInt_mod (ha : a.toInt = x) (hb : b.toInt = y) (hx : 0 ≤ x) : (a % b).toInt = x % y := by
  rw [Int64.toInt_mod, ha, hb, Int.tmod_eq_emod_of_nonneg hx]

theorem toInt_divEuclid (ha : a.toInt = x) (hb : b.toInt = y) (hx : 0 ≤ x) (hy : 0 < y) :
    (divEuclid a b).toInt = x / y := by
  have hle := Int.ediv_le_self y hx
  have hpos := Int.ediv_nonneg hx (Int.le_of_lt hy)
  have hmax := a.toInt_lt
  rw [divEuclid, ha, hb, Int64.toInt_ofInt_of_le (by omega) (by omega)]

theorem toInt_remEuclid (ha : a.toInt = x) (hb : b.toInt = y) (hy : 0 < y) :
    (remEuclid a b).toInt = x % y := by
  have hpos := Int.emod_nonneg x (Int.ne_of_gt hy)
  have hlt := Int.emod_lt_of_pos x hy
  have hmax := b.toInt_lt
  rw [remEuclid, ha, hb, Int64.toInt_ofInt_of_le (by omega) (by omega)]

theorem toNat_asU32 {n : Nat} (ha : a.toInt = n) (hn : n < 2 ^ 32) : (asU32 a).toNat = n := by
  rw [asU32, ha, UInt32.ofInt, UInt32.toNat_ofNat']
  omega


/-- The year of the era is its own integer: no step leaves the `i64`. -/
theorem toInt_yearOfEra {doe : Int64} {x : Int} (hdoe : doe.toInt = x) (h0 : 0 ≤ x) (h : x < 146097) :
    ((doe - doe / 1460 + doe / 36524 - doe / 146096) / 365).toInt = yearOfEra x := by
  have hcycles := toInt_div hdoe (b := 1460) (y := 1460) rfl h0 (by decide)
  have hcenturies := toInt_div hdoe (b := 36524) (y := 36524) rfl h0 (by decide)
  have heras := toInt_div hdoe (b := 146096) (y := 146096) rfl h0 (by decide)
  have hone := toInt_sub hdoe hcycles (by omega) (by omega)
  have htwo := toInt_add hone hcenturies (by omega) (by omega)
  have hthree := toInt_sub htwo heras (by omega) (by omega)
  exact toInt_div hthree (b := 365) (y := 365) rfl (by omega) (by decide)

theorem toInt_dayOfYear {doe yoe : Int64} {x y : Int} (hdoe : doe.toInt = x) (hyoe : yoe.toInt = y)
    (h0 : 0 ≤ x) (h : x < 146097) (hy0 : 0 ≤ y) (hy : y < 400) :
    (doe - (365 * yoe + yoe / 4 - yoe / 100)).toInt = dayOfYear x y := by
  have hdays := toInt_mul (a := 365) (x := 365) rfl hyoe (by omega) (by omega)
  have hfour := toInt_div hyoe (b := 4) (y := 4) rfl hy0 (by decide)
  have hhundred := toInt_div hyoe (b := 100) (y := 100) rfl hy0 (by decide)
  have hone := toInt_add hdays hfour (by omega) (by omega)
  have htwo := toInt_sub hone hhundred (by omega) (by omega)
  exact toInt_sub hdoe htwo (by omega) (by omega)

theorem toInt_monthOfYear {doy : Int64} {n : Nat} (hdoy : doy.toInt = n) (h : n ≤ 365) :
    ((5 * doy + 2) / 153).toInt = monthOfYear n := by
  have hfive := toInt_mul (a := 5) (x := 5) rfl hdoy (by omega) (by omega)
  have hsum := toInt_add hfive (b := 2) (y := 2) rfl (by omega) (by omega)
  rw [toInt_div hsum (b := 153) (y := 153) rfl (by omega) (by decide), monthOfYear]
  omega

theorem toNat_dayOfMonth {doy mp : Int64} {n m : Nat} (hdoy : doy.toInt = n) (hmp : mp.toInt = m)
    (h : n ≤ 365) (hm : m < 12) (hfrom : marchDays m ≤ n) :
    (asU32 (doy - (153 * mp + 2) / 5 + 1)).toNat = n - marchDays m + 1 := by
  have hmul := toInt_mul (a := 153) (x := 153) rfl hmp (by omega) (by omega)
  have hsum := toInt_add hmul (b := 2) (y := 2) rfl (by omega) (by omega)
  have hdays := toInt_div hsum (b := 5) (y := 5) rfl (by omega) (by decide)
  have hbegin : (153 * (m : Int) + 2) / 5 = (marchDays m : Nat) := by
    rw [marchDays]
    omega
  rw [hbegin] at hdays
  have hdiff := toInt_sub hdoy hdays (by omega) (by omega)
  have hday := toInt_add hdiff (b := 1) (y := 1) rfl (by omega) (by omega)
  exact toNat_asU32 (hday.trans (by omega)) (by omega)

theorem toNat_monthOf {mp : Int64} {m : Nat} (hmp : mp.toInt = m) (hm : m < 12) :
    (asU32 (if mp < 10 then mp + 3 else mp - 9)).toNat = monthOf m := by
  have hcond : mp < 10 ↔ m < 10 := by
    rw [Int64.lt_iff_toInt_lt, hmp, show (10 : Int64).toInt = 10 from rfl]
    omega
  unfold monthOf
  by_cases h : m < 10
  · rw [if_pos (hcond.2 h), if_pos h]
    exact toNat_asU32 (toInt_add hmp (b := 3) (y := 3) rfl (by omega) (by omega)) (by omega)
  · rw [if_neg (mt hcond.1 h), if_neg h]
    refine toNat_asU32 ((toInt_sub hmp (b := 9) (y := 9) rfl (by omega) (by omega)).trans ?_) (by omega)
    omega

theorem monthOf_range {mp : Nat} (h : mp < 12) : 1 ≤ monthOf mp ∧ monthOf mp ≤ 12 := by
  unfold monthOf
  split
  · omega
  · omega

/-- The leap day of January and February belongs to the year that began in the March before. -/
theorem toInt_yearOf {y : Int64} {Y : Int} {m : UInt32} {mp : Nat} (hy : y.toInt = Y)
    (hm : m.toNat = monthOf mp) (hmp : mp < 12) (hlow : 0 ≤ Y) (hhigh : Y < 2 ^ 62) :
    (if m ≤ 2 then y + 1 else y).toInt = yearOf Y mp := by
  have hcond : m ≤ 2 ↔ ¬ mp < 10 := by
    rw [UInt32.le_iff_toNat_le, hm, show (2 : UInt32).toNat = 2 from rfl, monthOf]
    split
    · omega
    · omega
  unfold yearOf
  by_cases h : mp < 10
  · rw [if_neg (fun hle => hcond.1 hle h), if_pos h]
    exact hy
  · rw [if_pos (hcond.2 h), if_neg h]
    exact toInt_add hy (b := 1) (y := 1) rfl (by omega) (by omega)

/-! ## Correctness -/

/-- A day from 1970 on lies in the calendar from 1970 on: the last ten months of 1969 are behind it. -/
theorem yearOf_ge {Y : Int} {doy : Nat} (h : doy ≤ 365) (hday : 719468 ≤ 365 * Y + leaps Y + doy) :
    1970 ≤ yearOf Y (monthOfYear doy) := by
  unfold leaps at hday
  unfold yearOf
  split
  · rename_i hmarch
    have hbefore : doy < 306 := by
      unfold monthOfYear at hmarch
      omega
    omega
  · omega

/-- Counting up to the date of a day gives the day. -/
theorem dayNumber_date {Y days : Int} {doy : Nat} (h : doy ≤ 365) (hdays : 0 ≤ days)
    (hcount : days + 719468 = 365 * Y + leaps Y + doy) :
    dayNumber (yearOf Y (monthOfYear doy)) (monthOf (monthOfYear doy))
      (doy - marchDays (monthOfYear doy) + 1 : Nat) = days := by
  obtain ⟨hmp, hfrom, -⟩ := monthOfYear_spec h
  rw [dayNumber_march _ hmp (yearOf_ge h (by omega))]
  omega

/-- The clock of a second of a day. -/
theorem toNat_clock {rem : Int64} {x : Nat} (hrem : rem.toInt = x) (h : x < 86400) :
    (asU32 (rem / 3600)).toNat = x / 3600 ∧ (asU32 (rem % 3600 / 60)).toNat = x % 3600 / 60 ∧
      (asU32 (rem % 60)).toNat = x % 60 := by
  have hpos : (0 : Int) ≤ x := Int.natCast_nonneg x
  have hhour := toInt_div hrem (b := 3600) (y := 3600) rfl hpos (by decide)
  have hinner := toInt_mod hrem (b := 3600) (y := 3600) rfl hpos
  have hminute := toInt_div hinner (b := 60) (y := 60) rfl (by omega) (by decide)
  have hsecond := toInt_mod hrem (b := 60) (y := 60) rfl hpos
  exact ⟨toNat_asU32 (hhour.trans (by omega)) (by omega),
    toNat_asU32 (hminute.trans (by omega)) (by omega),
    toNat_asU32 (hsecond.trans (by omega)) (by omega)⟩

/-- Counting the days and the clock of a second gives the second. -/
theorem unixSeconds_clock {y days : Int} {m d : Nat} (hday : dayNumber y m d = days) (x : Nat) :
    unixSeconds y m d (x / 3600) (x % 3600 / 60) (x % 60) = days * 86400 + x := by
  have hclock : (x / 3600 * 60 + x % 3600 / 60) * 60 + x % 60 = x := by omega
  rw [unixSeconds, hday]
  omega

/-- The year that began in March and the day of it, for a day of an era. -/
theorem toInt_eraDay {era doe yoe : Int64} {e x : Int}
    (hyoe : yoe = (doe - doe / 1460 + doe / 36524 - doe / 146096) / 365)
    (hera : era.toInt = e) (he0 : 0 ≤ e) (he : e < 2 ^ 50)
    (hdoe : doe.toInt = x) (hx0 : 0 ≤ x) (hx : x < 146097) :
    ∃ (Y : Int) (doy : Nat), (yoe + era * 400).toInt = Y ∧
      (doe - (365 * yoe + yoe / 4 - yoe / 100)).toInt = doy ∧ 0 ≤ Y ∧ Y < 2 ^ 62 ∧ doy ≤ 365 ∧
      (doy = 365 → isLeap (Y + 1)) ∧ e * 146097 + x = 365 * Y + leaps Y + doy := by
  obtain ⟨c, q, k, s, day⟩ := EraDay.exists hx0 hx
  have hcount := day.count e
  have hleap := fun hs => day.leap hs e
  have hyear := toInt_yearOfEra hdoe hx0 hx
  rw [← hyoe, day.year_eq] at hyear
  have ⟨hc0, hc⟩ := day.century
  have ⟨hq0, hq⟩ := day.cycle
  have ⟨hk0, hk⟩ := day.year
  have ⟨hs0, hs⟩ := day.day
  have hdoy := toInt_dayOfYear hdoe hyear hx0 hx (by omega) (by omega)
  rw [day.day_eq] at hdoy
  have hyears := toInt_mul hera (b := 400) (y := 400) rfl (by omega) (by omega)
  have hy := toInt_add hyear hyears (by omega) (by omega)
  obtain ⟨doy, rfl⟩ : ∃ doy : Nat, s = doy := Int.eq_ofNat_of_zero_le hs0
  exact ⟨_, doy, hy, hdoy, by omega, by omega, by omega, fun h365 => hleap (by omega), hcount⟩

/-- **Main result.**  The date of a second from 1970 on is a date of the calendar, and counting from 1970 up to it
gives the second. -/
theorem civilFromUnix_exact (secs : Int64) (h0 : 0 ≤ secs.toInt) :
    ∃ y m d hour min sec, civilFromUnix secs = (y, m, d, hour, min, sec) ∧
      1970 ≤ y.toInt ∧ 1 ≤ m.toNat ∧ m.toNat ≤ 12 ∧
      1 ≤ d.toNat ∧ d.toNat ≤ daysInMonth y.toInt m.toNat ∧
      hour.toNat < 24 ∧ min.toNat < 60 ∧ sec.toNat < 60 ∧
      unixSeconds y.toInt m.toNat d.toNat hour.toNat min.toNat sec.toNat = secs.toInt := by
  have hmax := secs.toInt_lt
  obtain ⟨days, rem, hsecs, hdays0, hrem⟩ : ∃ (days : Int) (rem : Nat),
      secs.toInt = days * 86400 + rem ∧ 0 ≤ days ∧ rem < 86400 :=
    ⟨secs.toInt / 86400, (secs.toInt % 86400).toNat, by omega, by omega, by omega⟩
  -- the day, and the second of the day
  have hdays := toInt_divEuclid hsecs (b := 86400) (y := 86400) rfl (by omega) (by decide)
  have hclock := toInt_remEuclid hsecs (b := 86400) (y := 86400) rfl (by decide)
  rw [show (days * 86400 + rem) / 86400 = days by omega] at hdays
  rw [show (days * 86400 + rem) % 86400 = rem by omega] at hclock
  have hz := toInt_add hdays (b := 719468) (y := 719468) rfl (by omega) (by omega)
  have hera := toInt_divEuclid hz (b := 146097) (y := 146097) rfl (by omega) (by decide)
  have hdoe := toInt_remEuclid hz (b := 146097) (y := 146097) rfl (by decide)
  -- the year, the month and the day of the month
  obtain ⟨Y, doy, hy, hdoy, hY0, hY, h365, hleap, hcount⟩ :=
    toInt_eraDay rfl hera (by omega) (by omega) hdoe (by omega) (by omega)
  rw [Int.mul_comm, Int.mul_ediv_add_emod] at hcount
  obtain ⟨hmpLt, hfrom, -⟩ := monthOfYear_spec h365
  have hmp := toInt_monthOfYear hdoy h365
  have hd := toNat_dayOfMonth hdoy hmp h365 hmpLt hfrom
  have hm := toNat_monthOf hmp hmpLt
  have hy' := toInt_yearOf hy hm hmpLt hY0 hY
  have hmonth := monthOf_range hmpLt
  have ⟨hhour, hminute, hsecond⟩ := toNat_clock hclock hrem
  refine ⟨_, _, _, _, _, _, rfl, ?_⟩
  rw [hy', hm, hd, hhour, hminute, hsecond]
  have hhourLt : rem / 3600 < 24 := Nat.div_lt_of_lt_mul hrem
  have hminuteLt : rem % 3600 / 60 < 60 := Nat.div_lt_of_lt_mul (Nat.mod_lt _ (by decide))
  refine ⟨yearOf_ge h365 ?_, hmonth.1, hmonth.2, Nat.le_add_left 1 _, dayOfMonth_le h365 hleap,
    hhourLt, hminuteLt, Nat.mod_lt _ (by decide), ?_⟩
  · rw [← hcount]
    exact Int.le_add_of_nonneg_left hdays0
  · rw [unixSeconds_clock (dayNumber_date h365 hdays0 hcount), hsecs]

/-- The second of the test in the source. -/
theorem civilFromUnix_exact_demo :
    civilFromUnix 1793602800 = (2026, 11, 2, 7, 0, 0) ∧ unixSeconds 2026 11 2 7 0 0 = 1793602800 := by
  obtain ⟨y, m, d, hour, min, sec, hdate, -, -, -, -, -, -, -, -, hexact⟩ :=
    civilFromUnix_exact 1793602800 (by decide)
  have hrun : civilFromUnix 1793602800 = (2026, 11, 2, 7, 0, 0) := by decide
  rw [hrun] at hdate
  cases hdate
  exact ⟨hrun, hexact⟩

end Httproxy.Register
