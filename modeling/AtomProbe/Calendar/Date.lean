/-!
# `AtomProbe.Calendar.Date`: days of the Gregorian calendar

The calendar is continued before its introduction, with a year zero.
`dayNumber` counts the days from the first of January 1970, and
`ofDayNumber` finds the date of a day. Both work on the cycle of 400
years, in which the leap days repeat, and on years that begin in March,
so that a leap day is the last day of its year.

Main statement: `dayNumber_ofDayNumber`, the date found for a day has
that day's number.
-/

set_option autoImplicit false

namespace AtomProbe.Calendar

/-- A date: a year, a month from 1 to 12 and a day of the month. -/
structure Date where
  year : Int
  month : Int
  day : Int
  deriving DecidableEq, Repr

/-- Whether the year has a leap day. -/
def isLeapYear (year : Int) : Bool :=
  year % 4 = 0 ∧ (year % 100 ≠ 0 ∨ year % 400 = 0)

/-- The number of days of a month. -/
def daysInMonth (year month : Int) : Int :=
  if month = 2 then (if isLeapYear year then 29 else 28)
  else if month = 4 ∨ month = 6 ∨ month = 9 ∨ month = 11 then 30
  else 31

namespace Date

/-- The days in 400 years. -/
def daysPerCycle : Int := 146097

/-- The days from the first of March of year zero to the first of
January 1970. -/
def epochOffset : Int := 719468

/-- The days before the month, counted from March as month zero. -/
def daysBeforeMonth (monthFromMarch : Int) : Int := (153 * monthFromMarch + 2) / 5

/-- The days before the year of a cycle. -/
def daysBeforeYear (yearOfCycle : Int) : Int :=
  yearOfCycle * 365 + yearOfCycle / 4 - yearOfCycle / 100

/-- The days from the first of January 1970 to the date. -/
def dayNumber (d : Date) : Int :=
  let year := if d.month ≤ 2 then d.year - 1 else d.year
  let monthFromMarch := if d.month ≤ 2 then d.month + 9 else d.month - 3
  let cycle := year / 400
  let yearOfCycle := year % 400
  cycle * daysPerCycle + daysBeforeYear yearOfCycle + daysBeforeMonth monthFromMarch +
    (d.day - 1) - epochOffset

/-- The year of the cycle that holds a day of the cycle: first the
century, then the leap period of four years, then the year. The last
century and the last year of a period may be a day longer. -/
def yearOfCycle (dayOfCycle : Int) : Int :=
  let century := min 3 (dayOfCycle / 36524)
  let dayOfCentury := dayOfCycle - century * 36524
  let period := dayOfCentury / 1461
  let dayOfPeriod := dayOfCentury - period * 1461
  century * 100 + period * 4 + min 3 (dayOfPeriod / 365)

/-- The date of a day of a year that begins in March. -/
def ofMarchYear (year dayOfYear : Int) : Date :=
  let monthFromMarch := (5 * dayOfYear + 2) / 153
  let day := dayOfYear - daysBeforeMonth monthFromMarch + 1
  if monthFromMarch < 10 then ⟨year, monthFromMarch + 3, day⟩
  else ⟨year + 1, monthFromMarch - 9, day⟩

/-- The date that many days after the first of January 1970. -/
def ofDayNumber (n : Int) : Date :=
  let shifted := n + epochOffset
  let cycle := shifted / daysPerCycle
  let dayOfCycle := shifted % daysPerCycle
  let year := yearOfCycle dayOfCycle
  ofMarchYear (cycle * 400 + year) (dayOfCycle - daysBeforeYear year)

theorem daysBeforeYear_parts {c p y : Int} (hp0 : 0 ≤ p) (hp : p ≤ 24)
    (hy0 : 0 ≤ y) (hy : y ≤ 3) :
    daysBeforeYear (c * 100 + p * 4 + y) = c * 36524 + p * 1461 + y * 365 := by
  simp only [daysBeforeYear]
  rw [show (c * 100 + p * 4 + y) / 4 = c * 25 + p by omega,
    show (c * 100 + p * 4 + y) / 100 = c by omega]
  omega

/-- A day of the cycle taken apart: before it lie `c` centuries, `p` leap
periods and `y` years, and then `r` days of its own year. Only the last
year of a leap period has a day 365, and the last period of a century
has one only in the last century. -/
structure Parts (d c p y r : Int) : Prop where
  day_eq : d = c * 36524 + p * 1461 + y * 365 + r
  century : 0 ≤ c ∧ c ≤ 3
  period : 0 ≤ p ∧ p ≤ 24
  year : 0 ≤ y ∧ y ≤ 3
  rest : 0 ≤ r ∧ r ≤ 365
  last : r = 365 → y = 3 ∧ (p = 24 → c = 3)

/-- The days before its year are those of the parts before it. -/
theorem Parts.sub_daysBeforeYear {d c p y r : Int} (h : Parts d c p y r) :
    d - daysBeforeYear (c * 100 + p * 4 + y) = r := by
  rw [daysBeforeYear_parts h.period.1 h.period.2 h.year.1 h.year.2]
  have hday := h.day_eq
  omega

/-- The parts are those that `yearOfCycle` takes off one after the
other. -/
theorem exists_parts {d : Int} (h0 : 0 ≤ d) (h1 : d < daysPerCycle) :
    ∃ c p y r, Parts d c p y r ∧ yearOfCycle d = c * 100 + p * 4 + y := by
  simp only [daysPerCycle] at h1
  obtain ⟨c, hc⟩ : ∃ c, c = min 3 (d / 36524) := ⟨_, rfl⟩
  obtain ⟨p, hp⟩ : ∃ p, p = (d - c * 36524) / 1461 := ⟨_, rfl⟩
  obtain ⟨y, hy⟩ : ∃ y, y = min 3 ((d - c * 36524 - p * 1461) / 365) := ⟨_, rfl⟩
  have hyear : yearOfCycle d = c * 100 + p * 4 + y := by
    rw [hy, hp, hc]
    rfl
  -- what is left of the day is bounded before the next part is taken off
  have hcentury : 0 ≤ c ∧ c ≤ 3 ∧ 0 ≤ d - c * 36524 ∧
      (d - c * 36524 < 36524 ∨ c = 3 ∧ d - c * 36524 = 36524) := by omega
  have hperiod : 0 ≤ p ∧ p ≤ 24 ∧ 0 ≤ d - c * 36524 - p * 1461 ∧
      d - c * 36524 - p * 1461 ≤ 1460 := by omega
  have hrest : 0 ≤ y ∧ y ≤ 3 ∧ 0 ≤ d - c * 36524 - p * 1461 - y * 365 ∧
      d - c * 36524 - p * 1461 - y * 365 ≤ 365 := by omega
  refine ⟨c, p, y, d - c * 36524 - p * 1461 - y * 365, ?_, hyear⟩
  constructor
  case last =>
    intro hlast
    omega
  all_goals omega

theorem yearOfCycle_bounds {d : Int} (h0 : 0 ≤ d) (h1 : d < daysPerCycle) :
    0 ≤ yearOfCycle d ∧ yearOfCycle d < 400 ∧
      0 ≤ d - daysBeforeYear (yearOfCycle d) ∧ d - daysBeforeYear (yearOfCycle d) ≤ 365 := by
  obtain ⟨c, p, y, r, hparts, hyear⟩ := exists_parts h0 h1
  rw [hyear, hparts.sub_daysBeforeYear]
  obtain ⟨-, hc, hp, hy, hr, -⟩ := hparts
  omega

/-- The number of the date of a day of a March year. -/
theorem dayNumber_ofMarchYear {year day : Int} (h0 : 0 ≤ day) (h1 : day ≤ 365) :
    (ofMarchYear year day).dayNumber =
      year / 400 * daysPerCycle + daysBeforeYear (year % 400) + day - epochOffset := by
  have hm : 0 ≤ (5 * day + 2) / 153 ∧ (5 * day + 2) / 153 ≤ 11 := by omega
  by_cases h : (5 * day + 2) / 153 < 10
  · have hd : ofMarchYear year day = ⟨year, (5 * day + 2) / 153 + 3,
        day - daysBeforeMonth ((5 * day + 2) / 153) + 1⟩ := by simp [ofMarchYear, h]
    have h2 : ¬ (5 * day + 2) / 153 + 3 ≤ 2 := by omega
    simp only [hd, dayNumber, h2, if_false,
      show (5 * day + 2) / 153 + 3 - 3 = (5 * day + 2) / 153 by omega]
    omega
  · have hd : ofMarchYear year day = ⟨year + 1, (5 * day + 2) / 153 - 9,
        day - daysBeforeMonth ((5 * day + 2) / 153) + 1⟩ := by simp [ofMarchYear, h]
    have h2 : (5 * day + 2) / 153 - 9 ≤ 2 := by omega
    simp only [hd, dayNumber, h2, if_true, show year + 1 - 1 = year by omega,
      show (5 * day + 2) / 153 - 9 + 9 = (5 * day + 2) / 153 by omega]
    omega

/-- The date found for a day has that day's number. -/
theorem dayNumber_ofDayNumber (n : Int) : (ofDayNumber n).dayNumber = n := by
  have hd0 : 0 ≤ (n + epochOffset) % daysPerCycle := Int.emod_nonneg _ (by decide)
  have hd1 : (n + epochOffset) % daysPerCycle < daysPerCycle := Int.emod_lt_of_pos _ (by decide)
  obtain ⟨hy0, hy1, h0, h1⟩ := yearOfCycle_bounds hd0 hd1
  have hn := Int.emod_add_mul_ediv (n + epochOffset) daysPerCycle
  simp only [ofDayNumber]
  rw [dayNumber_ofMarchYear h0 h1]
  generalize yearOfCycle ((n + epochOffset) % daysPerCycle) = y at *
  generalize (n + epochOffset) % daysPerCycle = d at *
  generalize (n + epochOffset) / daysPerCycle = c at *
  rw [show (c * 400 + y) / 400 = c by omega, show (c * 400 + y) % 400 = y by omega]
  simp only [daysPerCycle, epochOffset] at *
  omega

end Date

end AtomProbe.Calendar
