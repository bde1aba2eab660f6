import Mathlib.Algebra.Group.End
import Mathlib.Tactic.IntervalCases

/-!
# Calendar Dates of Day Numbers

The clock of the cron source turns the days since 1970-01-01 into a date by a closed formula.
The calendar here is defined the slow way: months have lengths, leap years are those of the
Gregorian rule, and a date has a day after it. The date of day `n` is reached from
1970-01-01 by `n` such steps, backwards when `n` is negative.

The formula counts from March, so that the leap day is the last of its year. `Date.dayNumber`
counts the same way and inverts it.

## Main definitions

* `Date`: A valid date; `Date.succ` is the day after as a permutation of all dates.
* `dateOf`: The date of a day number.
* `civilFromDays`: The closed formula.
* `defaultCronTickUtc`: The clock.

## Theorems

* `dayNumber_next`: The day after has the next number.
* `civil_dayNumber`: The formula turns the number of a date back into it.
* `civil_from_days_gregorian`: The formula is the calendar.
-/

namespace GraphRefly.Sources

/-! ### The calendar -/

/-- Whether a year has a 29th of February. -/
def IsLeap (year : Int) : Prop := year % 4 = 0 ∧ (year % 100 ≠ 0 ∨ year % 400 = 0)

instance (year : Int) : Decidable (IsLeap year) := inferInstanceAs (Decidable (_ ∧ _))

section

variable (year : Int) (month : Nat)

def monthLength : Nat :=
  if month = 2 then (if IsLeap year then 29 else 28)
  else if month = 4 ∨ month = 6 ∨ month = 9 ∨ month = 11 then 30
  else 31

theorem monthLength_pos : 1 ≤ monthLength year month := by
  simp only [monthLength]
  split_ifs <;> omega

theorem monthLength_le : monthLength year month ≤ 31 := by
  simp only [monthLength]
  split_ifs <;> omega

end

theorem monthLength_december (year : Int) : monthLength year 12 = 31 := by
  simp [monthLength]

/-- A valid date. -/
@[ext]
structure Date where
  year : Int
  month : Nat
  day : Nat
  month_mem : 1 ≤ month ∧ month ≤ 12
  day_mem : 1 ≤ day ∧ day ≤ monthLength year month

namespace Date

def epoch : Date := ⟨1970, 1, 1, by decide, by decide⟩

/-- The day after. -/
def next (d : Date) : Date :=
  if hday : d.day < monthLength d.year d.month then
    ⟨d.year, d.month, d.day + 1, d.month_mem, by omega, hday⟩
  else if hmonth : d.month < 12 then
    ⟨d.year, d.month + 1, 1, by omega, Nat.le_refl 1, monthLength_pos _ _⟩
  else ⟨d.year + 1, 1, 1, by decide, Nat.le_refl 1, monthLength_pos _ _⟩

/-- The day before. -/
def prev (d : Date) : Date :=
  if hday : 1 < d.day then
    ⟨d.year, d.month, d.day - 1, d.month_mem, by omega, by have := d.day_mem; omega⟩
  else if hmonth : 1 < d.month then
    ⟨d.year, d.month - 1, monthLength d.year (d.month - 1), by have := d.month_mem; omega,
      monthLength_pos _ _, Nat.le_refl _⟩
  else ⟨d.year - 1, 12, 31, by decide, by decide, by simp [monthLength]⟩

theorem prev_next (d : Date) : d.next.prev = d := by
  have hday := d.day_mem
  have hmonth := d.month_mem
  by_cases hlast : d.day < monthLength d.year d.month
  · have hgt : 1 < d.day + 1 := by omega
    simp [next, prev, hlast, hgt]
  · by_cases hdec : d.month < 12
    · have hgt : 1 < d.month + 1 := by omega
      ext <;> simp [next, prev, hlast, hdec, hgt]
      omega
    · ext <;> simp [next, prev, hlast, hdec]
      · omega
      · have heq : d.month = 12 := by omega
        rw [heq, monthLength_december] at hlast hday
        omega

theorem next_prev (d : Date) : d.prev.next = d := by
  have hday := d.day_mem
  have hmonth := d.month_mem
  by_cases hfirst : 1 < d.day
  · have hlt : d.day - 1 < monthLength d.year d.month := by omega
    ext <;> simp [next, prev, hfirst, hlt]
    omega
  · by_cases hjan : 1 < d.month
    · have hlt : d.month - 1 < 12 := by omega
      ext <;> simp [next, prev, hfirst, hjan, hlt]
      · omega
      · omega
    · ext <;> simp [next, prev, hfirst, hjan, monthLength]
      · omega
      · omega

/-- The day after, as a permutation of all dates. -/
def succ : Equiv.Perm Date where
  toFun := next
  invFun := prev
  left_inv := prev_next
  right_inv := next_prev

end Date

/-- The date reached from 1970-01-01 by `n` steps of a day. -/
def dateOf (n : Int) : Date := (Date.succ ^ n) Date.epoch

theorem dateOf_add_one (n : Int) : dateOf (n + 1) = (dateOf n).next := by
  rw [dateOf, add_comm, zpow_add, zpow_one]
  rfl

inductive Weekday
  | sunday
  | monday
  | tuesday
  | wednesday
  | thursday
  | friday
  | saturday

namespace Weekday

def number : Weekday → Nat
  | sunday => 0
  | monday => 1
  | tuesday => 2
  | wednesday => 3
  | thursday => 4
  | friday => 5
  | saturday => 6

def next : Weekday → Weekday
  | sunday => monday
  | monday => tuesday
  | tuesday => wednesday
  | wednesday => thursday
  | thursday => friday
  | friday => saturday
  | saturday => sunday

def prev : Weekday → Weekday
  | sunday => saturday
  | monday => sunday
  | tuesday => monday
  | wednesday => tuesday
  | thursday => wednesday
  | friday => thursday
  | saturday => friday

/-- The weekday after, as a permutation of the week. -/
def succ : Equiv.Perm Weekday where
  toFun := next
  invFun := prev
  left_inv d := by cases d <;> rfl
  right_inv d := by cases d <;> rfl

theorem number_next (d : Weekday) : d.next.number = (d.number + 1) % 7 := by
  cases d <;> rfl

theorem number_lt (d : Weekday) : d.number < 7 := by
  cases d <;> decide

end Weekday

/-- The weekday of a day number; 1970-01-01 was a Thursday. -/
def weekdayOf (n : Int) : Weekday := (Weekday.succ ^ n) Weekday.thursday

theorem weekdayOf_add_one (n : Int) : weekdayOf (n + 1) = (weekdayOf n).next := by
  rw [weekdayOf, add_comm, zpow_add, zpow_one]
  rfl

/-! ### The clock -/

def tryI32 (value fallback : Int) : Int :=
  if -2147483648 ≤ value ∧ value ≤ 2147483647 then value else fallback

def tryU8 (value : Int) (fallback : Nat) : Nat :=
  if 0 ≤ value ∧ value ≤ 255 then value.toNat else fallback

def civilFromDays (daysSinceUnixEpoch : Int) : Int × Nat × Nat :=
  let z := daysSinceUnixEpoch + 719468
  let era := (if z ≥ 0 then z else z - 146096).tdiv 146097
  let doe := z - era * 146097
  let yoe := (doe - doe.tdiv 1460 + doe.tdiv 36524 - doe.tdiv 146096).tdiv 365
  let year := yoe + era * 400
  let doy := doe - (365 * yoe + yoe.tdiv 4 - yoe.tdiv 100)
  let mp := (5 * doy + 2).tdiv 153
  let day := doy - (153 * mp + 2).tdiv 5 + 1
  let month := mp + if mp < 10 then 3 else -9
  let year := year + if month ≤ 2 then 1 else 0
  (tryI32 year 2147483647, tryU8 month 12, tryU8 day 31)

structure CronInstant where
  year : Int
  month : Nat
  dayOfMonth : Nat
  hour : Nat
  minute : Nat
  dayOfWeek : Nat
  deriving DecidableEq

structure CronTick where
  instant : CronInstant
  timestampNs : String

def dayOfWeek (days : Int) : Nat := tryU8 ((days + 4) % 7) 0

/-- The tick of a clock that shows so many nanoseconds since the epoch. -/
def defaultCronTickUtc (nanos : Nat) : CronTick :=
  let secs : Int := if nanos / 1000000000 ≤ 2 ^ 63 - 1 then nanos / 1000000000 else 2 ^ 63 - 1
  let days := secs / 86400
  let secondsOfDay := secs % 86400
  let date := civilFromDays days
  let hour := tryU8 (secondsOfDay.tdiv 3600) 23
  let minute := tryU8 ((secondsOfDay.tmod 3600).tdiv 60) 59
  ⟨⟨date.1, date.2.1, date.2.2, hour, minute, dayOfWeek days⟩, toString nanos⟩

/-! ### Counting from March -/

namespace Date

section

variable (d : Date)

/-- The year that begins with the March before a date. -/
def marchYear : Int := d.year - if d.month ≤ 2 then 1 else 0

/-- The months since March. -/
def marchMonth : Int := if d.month ≤ 2 then d.month + 9 else d.month - 3

/-- The days since the first of March. -/
def marchDay : Int := (153 * d.marchMonth + 2) / 5 + d.day - 1

/-- The days from the epoch to a date. -/
def dayNumber : Int :=
  146097 * (d.marchYear / 400) + 365 * (d.marchYear % 400) + d.marchYear % 400 / 4 -
    d.marchYear % 400 / 100 + d.marchDay - 719468

theorem marchDay_mem : 0 ≤ d.marchDay ∧
    d.marchDay ≤ 364 + if IsLeap (d.marchYear + 1) then 1 else 0 := by
  obtain ⟨year, month, day, hmonth, hday⟩ := d
  simp only [marchDay, marchMonth, marchYear]
  obtain ⟨hlow, hhigh⟩ := hmonth
  interval_cases month <;> simp [monthLength] at hday ⊢ <;> split_ifs at hday ⊢ <;> omega

theorem marchMonth_eq : (5 * d.marchDay + 2) / 153 = d.marchMonth := by
  obtain ⟨year, month, day, hmonth, hday⟩ := d
  simp only [marchDay, marchMonth]
  obtain ⟨hlow, hhigh⟩ := hmonth
  interval_cases month <;> simp [monthLength] at hday ⊢ <;> (try split_ifs at hday) <;> omega

theorem dayNumber_next : d.next.dayNumber = d.dayNumber + 1 := by
  obtain ⟨year, month, day, hmonth, hday⟩ := d
  by_cases hlast : day < monthLength year month
  · simp only [next, dif_pos hlast, dayNumber, marchDay, marchMonth, marchYear]
    push_cast
    omega
  · have hend : day = monthLength year month := by omega
    obtain ⟨hlow, hhigh⟩ := hmonth
    simp only [next, dif_neg hlast]
    by_cases hleap : IsLeap year
    all_goals
      interval_cases month <;>
        simp [dayNumber, marchDay, marchMonth, marchYear, hend, monthLength, hleap]
      all_goals
        simp only [IsLeap] at hleap
        omega

end

end Date

/-! ### The formula -/

theorem tryU8_natCast {value fallback : Nat} (h : value ≤ 255) :
    tryU8 value fallback = value := by
  rw [tryU8, if_pos (by omega), Int.toNat_natCast]

theorem era_eq (z : Int) :
    (if z ≥ 0 then z else z - 146096).tdiv 146097 = z / 146097 := by
  by_cases hz : z ≥ 0
  · rw [if_pos hz, Int.tdiv_eq_ediv_of_nonneg hz]
  · rw [if_neg hz, Int.tdiv_eq_ediv]
    have hsign : Int.sign 146097 = 1 := rfl
    by_cases hdvd : (146097 : Int) ∣ z - 146096
    · rw [if_pos (Or.inr hdvd)]
      omega
    · rw [if_neg (by omega)]
      omega

theorem yoe_eq {y D S : Int} (hy : 0 ≤ y ∧ y < 400)
    (hD : 0 ≤ D ∧ D ≤ 365)
    (hleap : D = 365 → (y + 1) % 4 = 0 ∧ ((y + 1) % 100 ≠ 0 ∨ (y + 1) % 400 = 0))
    (hS : S = 365 * y + y / 4 - y / 100 + D) :
    (S - S.tdiv 1460 + S.tdiv 36524 - S.tdiv 146096).tdiv 365 = y := by
  have hS0 : 0 ≤ S := by omega
  rw [Int.tdiv_eq_ediv_of_nonneg hS0, Int.tdiv_eq_ediv_of_nonneg hS0,
    Int.tdiv_eq_ediv_of_nonneg hS0]
  have hcentury : S / 36524 - S / 146096 = y / 100 := by
    by_cases hlast : S = 146096
    · omega
    · have hsplit : S = 36524 * (y / 100) + (365 * (y % 100) + y % 100 / 4 + D) := by omega
      have hrest : 365 * (y % 100) + y % 100 / 4 + D < 36524 := by
        by_cases hend : y % 100 = 99
        · have hshort : D ≤ 364 := by omega
          omega
        · omega
      have hdiv : S / 36524 = y / 100 := by omega
      omega
  have hquad : S = 1460 * (y / 4) + (y / 4 + 365 * (y % 4) + D - y / 100) := by omega
  by_cases hover : 1460 ≤ y / 4 + 365 * (y % 4) + D - y / 100
  · have hdiv : S / 1460 = y / 4 + 1 := by omega
    rw [Int.tdiv_eq_ediv_of_nonneg (by omega)]
    omega
  · have hdiv : S / 1460 = y / 4 := by omega
    rw [Int.tdiv_eq_ediv_of_nonneg (by omega)]
    omega
theorem yoe_dayNumber (d : Date) {doe : Int}
    (hdoe : doe = d.dayNumber + 719468 - d.marchYear / 400 * 146097) :
    (0 ≤ doe ∧ doe < 146097) ∧
      (doe - doe.tdiv 1460 + doe.tdiv 36524 - doe.tdiv 146096).tdiv 365 =
        d.marchYear % 400 := by
  obtain ⟨hlow, hhigh⟩ := d.marchDay_mem
  have hleap : d.marchDay = 365 → (d.marchYear % 400 + 1) % 4 = 0 ∧
      ((d.marchYear % 400 + 1) % 100 ≠ 0 ∨ (d.marchYear % 400 + 1) % 400 = 0) := by
    intro hlast
    by_cases h : IsLeap (d.marchYear + 1)
    · simp only [IsLeap] at h
      omega
    · rw [if_neg h] at hhigh
      omega
  have hmax : d.marchDay ≤ 365 := by
    split_ifs at hhigh <;> omega
  have hsum : doe = 365 * (d.marchYear % 400) + d.marchYear % 400 / 4 -
      d.marchYear % 400 / 100 + d.marchDay := by
    rw [hdoe, Date.dayNumber]
    omega
  refine ⟨by omega, yoe_eq (by omega) ⟨hlow, hmax⟩ hleap hsum⟩

/-- The formula turns the number of a date back into it. -/
theorem civil_dayNumber (d : Date) :
    civilFromDays d.dayNumber = (tryI32 d.year 2147483647, d.month, d.day) := by
  have hday := d.day_mem
  have hmonth := d.month_mem
  have hlow := d.marchDay_mem.1
  generalize hdoe : d.dayNumber + 719468 - d.marchYear / 400 * 146097 = doe
  obtain ⟨hbounds, hyear⟩ := yoe_dayNumber d hdoe.symm
  have hera : (d.dayNumber + 719468) / 146097 = d.marchYear / 400 := by omega
  have hdoy : doe - (365 * (d.marchYear % 400) + (d.marchYear % 400).tdiv 4 -
      (d.marchYear % 400).tdiv 100) = d.marchDay := by
    rw [Int.tdiv_eq_ediv_of_nonneg (by omega), Int.tdiv_eq_ediv_of_nonneg (by omega), ← hdoe,
      Date.dayNumber]
    omega
  have hmp : (5 * d.marchDay + 2).tdiv 153 = d.marchMonth := by
    rw [Int.tdiv_eq_ediv_of_nonneg (by omega)]
    exact d.marchMonth_eq
  have hmp0 : 0 ≤ d.marchMonth := by
    simp only [Date.marchMonth]
    split_ifs <;> omega
  have hdays : d.marchDay - (153 * d.marchMonth + 2).tdiv 5 + 1 = d.day := by
    rw [Int.tdiv_eq_ediv_of_nonneg (by omega), Date.marchDay]
    omega
  have hmonths : d.marchMonth + (if d.marchMonth < 10 then 3 else -9) = d.month := by
    simp only [Date.marchMonth]
    split_ifs <;> omega
  have hyears : d.marchYear % 400 + d.marchYear / 400 * 400 +
      (if (d.month : Int) ≤ 2 then 1 else 0) = d.year := by
    have hmarch : d.marchYear % 400 + d.marchYear / 400 * 400 = d.marchYear := by omega
    rw [hmarch, Date.marchYear]
    split_ifs <;> omega
  have hlength := monthLength_le d.year d.month
  simp only [civilFromDays, era_eq, hera, hdoe, hyear, hdoy, hmp, hdays, hmonths, hyears]
  rw [tryU8_natCast (by omega), tryU8_natCast (by omega)]

/-! ### The formula is the calendar -/

theorem dayNumber_dateOf (n : Int) : (dateOf n).dayNumber = n := by
  induction n using Int.induction_on with
  | zero => rfl
  | succ k ih => rw [dateOf_add_one, Date.dayNumber_next, ih]
  | pred k ih =>
    have hnext := Date.dayNumber_next (dateOf (-k - 1))
    rw [← dateOf_add_one, sub_add_cancel, ih] at hnext
    omega

theorem dayNumber_injective : Function.Injective Date.dayNumber := by
  intro a b hab
  have hcivil := congrArg civilFromDays hab
  rw [civil_dayNumber, civil_dayNumber, Prod.mk.injEq, Prod.mk.injEq] at hcivil
  obtain ⟨-, hmonth, hday⟩ := hcivil
  have hmarch : a.marchYear = b.marchYear := by
    have ha := yoe_dayNumber a rfl
    have hb := yoe_dayNumber b rfl
    have hera : a.marchYear / 400 = b.marchYear / 400 := by omega
    rw [hab, hera] at ha
    have hyoe := ha.2.symm.trans hb.2
    omega
  refine Date.ext ?_ hmonth hday
  rw [Date.marchYear, Date.marchYear, hmonth] at hmarch
  omega

theorem dateOf_dayNumber (d : Date) : dateOf d.dayNumber = d :=
  dayNumber_injective (dayNumber_dateOf d.dayNumber)

/-- The year, the month and the day of a date. -/
def Date.fields (d : Date) : Int × Nat × Nat := (d.year, d.month, d.day)

/-- Whether a year is an `i32`. -/
def FitsI32 (year : Int) : Prop := -2147483648 ≤ year ∧ year ≤ 2147483647

theorem civil_dateOf {n : Int} (h : FitsI32 (dateOf n).year) :
    civilFromDays n = (dateOf n).fields := by
  have hcivil := civil_dayNumber (dateOf n)
  rw [dayNumber_dateOf] at hcivil
  have hyear : tryI32 (dateOf n).year 2147483647 = (dateOf n).year := if_pos h
  rw [hcivil, hyear]
  rfl

theorem dayOfWeek_eq (n : Int) : dayOfWeek n = (weekdayOf n).number := by
  have hmod : ((weekdayOf n).number : Int) = (n + 4) % 7 := by
    induction n using Int.induction_on with
    | zero => rfl
    | succ k ih =>
      rw [weekdayOf_add_one, Weekday.number_next]
      omega
    | pred k ih =>
      have hnext := Weekday.number_next (weekdayOf (-k - 1))
      have hlt := Weekday.number_lt (weekdayOf (-k - 1))
      rw [← weekdayOf_add_one, sub_add_cancel] at hnext
      omega
  have hlt := Weekday.number_lt (weekdayOf n)
  rw [dayOfWeek, ← hmod, tryU8_natCast (by omega)]

theorem dayNumber_bounds {d : Date} (h : FitsI32 d.year) :
    -2 ^ 40 < d.dayNumber ∧ d.dayNumber < 2 ^ 40 := by
  obtain ⟨hlow, hhigh⟩ := d.marchDay_mem
  have hmax : d.marchDay ≤ 365 := by
    split_ifs at hhigh <;> omega
  have hyear : d.year - 1 ≤ d.marchYear ∧ d.marchYear ≤ d.year := by
    rw [Date.marchYear]
    split_ifs <;> omega
  simp only [FitsI32] at h
  rw [Date.dayNumber]
  omega

/-- On the day numbers whose year is an `i32` the formula is the calendar. The day after a day
is the calendar's, every such date is had exactly once, and the weekday goes with it. -/
theorem civil_from_days_gregorian :
    civilFromDays 0 = (1970, 1, 1) ∧
    (∀ n, FitsI32 (dateOf n).year → civilFromDays n = (dateOf n).fields) ∧
    (∀ n, FitsI32 (dateOf n).year → FitsI32 (dateOf (n + 1)).year →
      ∃ d : Date, civilFromDays n = d.fields ∧ civilFromDays (n + 1) = d.next.fields) ∧
    Set.BijOn civilFromDays {n | FitsI32 (dateOf n).year}
      {t | ∃ d : Date, FitsI32 d.year ∧ d.fields = t} ∧
    (∀ n, FitsI32 (dateOf n).year → -2 ^ 40 < n ∧ n < 2 ^ 40) ∧
    weekdayOf 0 = .thursday ∧
    ∀ n, weekdayOf (n + 1) = (weekdayOf n).next ∧ dayOfWeek n = (weekdayOf n).number := by
  refine ⟨by decide, fun n => civil_dateOf, fun n hn hnext => ⟨dateOf n, civil_dateOf hn, ?_⟩,
    ⟨?_, ?_, ?_⟩, fun n hn => ?_, rfl, fun n => ⟨weekdayOf_add_one n, dayOfWeek_eq n⟩⟩
  · rw [civil_dateOf hnext, dateOf_add_one]
  · exact fun n hn => ⟨dateOf n, hn, (civil_dateOf hn).symm⟩
  · intro a ha b hb hab
    rw [civil_dateOf ha, civil_dateOf hb, Date.fields, Date.fields, Prod.mk.injEq,
      Prod.mk.injEq] at hab
    rw [← dayNumber_dateOf a, ← dayNumber_dateOf b,
      Date.ext hab.1 hab.2.1 hab.2.2]
  · rintro t ⟨d, hd, rfl⟩
    have hdate := dateOf_dayNumber d
    exact ⟨d.dayNumber, by rwa [Set.mem_ofPred, hdate], by rw [civil_dateOf (by rwa [hdate]), hdate]⟩
  · have hbounds := dayNumber_bounds hn
    rwa [dayNumber_dateOf] at hbounds

theorem civil_from_days_leap_day : ∃ d : Date,
    civilFromDays 11015 = d.fields ∧ civilFromDays (11015 + 1) = d.next.fields := by
  have hnumber : Date.dayNumber ⟨2000, 2, 28, by decide, by decide⟩ = 11015 := by decide +kernel
  have hdate := dateOf_dayNumber ⟨2000, 2, 28, by decide, by decide⟩
  rw [hnumber] at hdate
  refine civil_from_days_gregorian.2.2.1 11015 ?_ ?_
  · rw [hdate]
    simp [FitsI32]
  · rw [dateOf_add_one, hdate]
    simp [FitsI32, Date.next, monthLength, IsLeap]

/-- After the last day of the last year of an `i32` the year stays where it is. -/
theorem last_day_saturates : ¬∀ n, FitsI32 (dateOf n).year →
    ∃ d : Date, civilFromDays n = d.fields ∧ civilFromDays (n + 1) = d.next.fields := by
  intro h
  have hnumber : Date.dayNumber ⟨2147483647, 12, 31, by decide, by decide⟩ = 784351576776 := by
    decide +kernel
  have hdate := dateOf_dayNumber ⟨2147483647, 12, 31, by decide, by decide⟩
  rw [hnumber] at hdate
  obtain ⟨d, hd, hnext⟩ := h 784351576776 (by rw [hdate]; simp [FitsI32])
  have hlast : civilFromDays 784351576776 = (2147483647, 12, 31) := by decide +kernel
  have hafter : civilFromDays (784351576776 + 1) = (2147483647, 1, 1) := by decide +kernel
  rw [hlast, Date.fields, Prod.mk.injEq, Prod.mk.injEq] at hd
  rw [hafter, Date.fields, Prod.mk.injEq] at hnext
  have hyear : d.next.year = 2147483648 := by
    simp [Date.next, ← hd.1, ← hd.2.1, ← hd.2.2, monthLength]
  omega

end GraphRefly.Sources
