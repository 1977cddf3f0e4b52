import AtomProbe.Calendar.Date
import Mathlib.Data.Int.Init
import Mathlib.Logic.Function.Iterate
import Mathlib.Tactic.IntervalCases

/-!
# `AtomProbe.Proofs.Calendar.Date`: the calendar, one day after another

`next` leafs the calendar over by one day: to the next day of the month,
from the last one to the first of the next month, and from the last
month to the first of January. It knows the lengths of the months and
nothing else. Days are counted by leafing on from the first of January
1970 (`IsDay`), and the closed forms `dayNumber` and `ofDayNumber`, which
compute with cycles of 400 years, have to agree with that.

* `dayNumber_next`: the next day has the next number.
* `dayNumber_lt_of_before`: an earlier date has a smaller number, so that
  no two dates have the same one (`dayNumber_injective`).
* `isValid_ofDayNumber`: the date found for a day is one of the calendar.
* `isDay_iff`: the days that are leafed over are as many as the number of
  the date says.
-/

set_option autoImplicit false

namespace AtomProbe.Calendar

theorem daysInMonth_bounds (year month : Int) :
    28 ≤ daysInMonth year month ∧ daysInMonth year month ≤ 31 := by
  simp only [daysInMonth]
  repeat' split
  all_goals omega

namespace Date

/-- The month is one of the year, and the day is one of the month. -/
structure IsValid (d : Date) : Prop where
  one_le_month : 1 ≤ d.month
  month_le : d.month ≤ 12
  one_le_day : 1 ≤ d.day
  day_le : d.day ≤ daysInMonth d.year d.month

theorem ext_parts {d d' : Date} (hyear : d.year = d'.year) (hmonth : d.month = d'.month)
    (hday : d.day = d'.day) : d = d' := by
  cases d
  cases d'
  rw [mk.injEq]
  exact ⟨hyear, hmonth, hday⟩

/-- The date of the next day. -/
def next (d : Date) : Date :=
  if d.day < daysInMonth d.year d.month then ⟨d.year, d.month, d.day + 1⟩
  else if d.month < 12 then ⟨d.year, d.month + 1, 1⟩
  else ⟨d.year + 1, 1, 1⟩

/-! ### From one day to the next -/

/-- The days from the first of March of year zero to that of the year. -/
def daysBeforeMarch (year : Int) : Int :=
  365 * year + year / 4 - year / 100 + year / 400

theorem daysBeforeMarch_eq (year : Int) :
    year / 400 * daysPerCycle + daysBeforeYear (year % 400) = daysBeforeMarch year := by
  simp only [daysPerCycle, daysBeforeYear, daysBeforeMarch]
  omega

/-- February is the last month of a March year, and the only one whose
length depends on the year. -/
theorem daysBeforeMarch_eq_add (year : Int) :
    daysBeforeMarch year = daysBeforeMarch (year - 1) + 337 + daysInMonth year 2 := by
  simp only [daysBeforeMarch, daysInMonth, isLeapYear, decide_eq_true_eq, if_true]
  split <;> omega

theorem dayNumber_add_day (year month day : Int) :
    dayNumber ⟨year, month, day⟩ = dayNumber ⟨year, month, 1⟩ + (day - 1) := by
  simp only [dayNumber]
  omega

/-- The lengths of the months, counted from March. -/
theorem daysBeforeMonth_succ {m : Int} (h0 : 0 ≤ m) (h10 : m ≤ 10) (year : Int) :
    daysBeforeMonth (m + 1) =
      daysBeforeMonth m + daysInMonth year (if m < 10 then m + 3 else m - 9) := by
  interval_cases m <;> rfl

/-- A month is as long as `daysInMonth` says. -/
theorem dayNumber_succ_month (year : Int) {month : Int} (h1 : 1 ≤ month) (h12 : month < 12) :
    dayNumber ⟨year, month + 1, 1⟩ = dayNumber ⟨year, month, 1⟩ + daysInMonth year month := by
  obtain rfl | rfl | h3 : month = 1 ∨ month = 2 ∨ 3 ≤ month := by omega
  · have hjanuary : daysInMonth year 1 = 31 := rfl
    norm_num [dayNumber, daysBeforeMonth, hjanuary]
    omega
  · have hfebruary := daysBeforeMarch_eq_add year
    norm_num [dayNumber, daysBeforeMarch_eq, daysBeforeMonth]
    omega
  · have hlength := daysBeforeMonth_succ (m := month - 3) (by omega) (by omega) year
    rw [if_pos (by omega), Int.sub_add_cancel, show month - 3 + 1 = month + 1 - 3 by omega]
      at hlength
    simp only [dayNumber, if_neg (show ¬ month ≤ 2 by omega),
      if_neg (show ¬ month + 1 ≤ 2 by omega), hlength]
    omega

theorem dayNumber_succ_year (year : Int) :
    dayNumber ⟨year + 1, 1, 1⟩ = dayNumber ⟨year, 12, 1⟩ + 31 := by
  simp [dayNumber, daysBeforeMonth]
  omega

theorem isValid_next {d : Date} (h : d.IsValid) : d.next.IsValid := by
  obtain ⟨year, month, day⟩ := d
  have ⟨h1, h12, hd1, hd⟩ := h
  have hmonth := daysInMonth_bounds year (month + 1)
  have hyear := daysInMonth_bounds (year + 1) 1
  simp only [next] at h1 h12 hd1 hd ⊢
  split
  · constructor <;> dsimp only <;> omega
  · split <;> constructor <;> dsimp only <;> omega

/-- The next day has the next number. -/
theorem dayNumber_next {d : Date} (h : d.IsValid) : d.next.dayNumber = d.dayNumber + 1 := by
  obtain ⟨year, month, day⟩ := d
  have ⟨h1, h12, hd1, hd⟩ := h
  have hday := dayNumber_add_day year month day
  simp only [next] at h1 h12 hd1 hd ⊢
  split
  · rw [dayNumber_add_day, hday]
    omega
  · split
    · next hlt =>
      rw [dayNumber_succ_month _ h1 hlt, hday]
      omega
    · obtain rfl : month = 12 := by omega
      have hdecember : daysInMonth year 12 = 31 := rfl
      rw [dayNumber_succ_year, hday]
      omega

/-! ### Earlier dates -/

/-- Whether a date comes before another one in the calendar. -/
def Before (d d' : Date) : Prop :=
  d.year < d'.year ∨
    d.year = d'.year ∧ (d.month < d'.month ∨ d.month = d'.month ∧ d.day < d'.day)

/-- A month ends before a later one begins. Induction on the later
month. -/
theorem dayNumber_month_le (year : Int) {month month' : Int} (h1 : 1 ≤ month)
    (h : month < month') (h12 : month' ≤ 12) :
    dayNumber ⟨year, month, 1⟩ + daysInMonth year month ≤ dayNumber ⟨year, month', 1⟩ := by
  induction month', h using Int.leInduction with
  | base => exact (dayNumber_succ_month year h1 h12).ge
  | succ m hm ih =>
    have hm1 : 1 ≤ m := by omega
    have hbefore := ih (by omega)
    have hnext := dayNumber_succ_month year hm1 (by omega)
    have hlength := daysInMonth_bounds year m
    omega

/-- A year ends before a later one begins. Induction on the later year. -/
theorem dayNumber_year_le {year year' : Int} (h : year < year') :
    dayNumber ⟨year, 12, 1⟩ + 31 ≤ dayNumber ⟨year', 1, 1⟩ := by
  induction year', h using Int.leInduction with
  | base => exact (dayNumber_succ_year year).ge
  | succ y hy ih =>
    have hmonths : dayNumber ⟨y, 1, 1⟩ + daysInMonth y 1 ≤ dayNumber ⟨y, 12, 1⟩ :=
      dayNumber_month_le y (by decide) (by decide) (by decide)
    have hlength := daysInMonth_bounds y 1
    rw [dayNumber_succ_year]
    omega

/-- A date lies in its month. -/
theorem dayNumber_mem_month {d : Date} (h : d.IsValid) :
    dayNumber ⟨d.year, d.month, 1⟩ ≤ d.dayNumber ∧
      d.dayNumber < dayNumber ⟨d.year, d.month, 1⟩ + daysInMonth d.year d.month := by
  have hday : d.dayNumber = _ := dayNumber_add_day d.year d.month d.day
  have hfirst := h.one_le_day
  have hlast := h.day_le
  omega

/-- A date lies in its year. -/
theorem dayNumber_mem_year {d : Date} (h : d.IsValid) :
    dayNumber ⟨d.year, 1, 1⟩ ≤ d.dayNumber ∧
      d.dayNumber < dayNumber ⟨d.year, 12, 1⟩ + 31 := by
  have hmem := dayNumber_mem_month h
  have hlength := daysInMonth_bounds d.year 1
  constructor
  · by_cases hmonth : d.month = 1
    · rw [hmonth] at hmem
      exact hmem.1
    · have hlt : 1 < d.month := by
        have := h.one_le_month
        omega
      have hbefore := dayNumber_month_le d.year (by decide) hlt h.month_le
      omega
  · by_cases hmonth : d.month = 12
    · rw [hmonth] at hmem
      exact hmem.2
    · have hlt : d.month < 12 := by
        have := h.month_le
        omega
      have hbefore := dayNumber_month_le d.year h.one_le_month hlt (by decide)
      omega

/-- An earlier date has a smaller number. -/
theorem dayNumber_lt_of_before {d d' : Date} (hd : d.IsValid) (hd' : d'.IsValid)
    (h : d.Before d') : d.dayNumber < d'.dayNumber := by
  rcases h with hyear | ⟨hyear, hmonth | ⟨hmonth, hday⟩⟩
  · calc d.dayNumber < dayNumber ⟨d.year, 12, 1⟩ + 31 := (dayNumber_mem_year hd).2
      _ ≤ dayNumber ⟨d'.year, 1, 1⟩ := dayNumber_year_le hyear
      _ ≤ d'.dayNumber := (dayNumber_mem_year hd').1
  · have hmem := (dayNumber_mem_month hd').1
    rw [← hyear] at hmem
    calc d.dayNumber < dayNumber ⟨d.year, d.month, 1⟩ + daysInMonth d.year d.month :=
          (dayNumber_mem_month hd).2
      _ ≤ dayNumber ⟨d.year, d'.month, 1⟩ :=
          dayNumber_month_le _ hd.one_le_month hmonth hd'.month_le
      _ ≤ d'.dayNumber := hmem
  · have hnumber : d.dayNumber = _ := dayNumber_add_day d.year d.month d.day
    have hnumber' : d'.dayNumber = _ := dayNumber_add_day d'.year d'.month d'.day
    rw [← hyear, ← hmonth] at hnumber'
    omega

theorem before_or_before {d d' : Date} (hne : d ≠ d') : d.Before d' ∨ d'.Before d := by
  obtain ⟨year, month, day⟩ := d
  obtain ⟨year', month', day'⟩ := d'
  rw [Ne, mk.injEq] at hne
  simp only [Before]
  omega

theorem before_of_dayNumber_lt {d d' : Date} (hd : d.IsValid) (hd' : d'.IsValid)
    (h : d.dayNumber < d'.dayNumber) : d.Before d' := by
  have hne : d ≠ d' := by
    rintro rfl
    omega
  refine (before_or_before hne).resolve_right fun hbefore => ?_
  have := dayNumber_lt_of_before hd' hd hbefore
  omega

/-- Different dates have different numbers. -/
theorem dayNumber_injective {d d' : Date} (hd : d.IsValid) (hd' : d'.IsValid)
    (h : d.dayNumber = d'.dayNumber) : d = d' := by
  by_contra hne
  rcases before_or_before hne with hbefore | hbefore
  · have := dayNumber_lt_of_before hd hd' hbefore
    omega
  · have := dayNumber_lt_of_before hd' hd hbefore
    omega

/-! ### The date of a day -/

/-- Only a March year that ends with a leap day has a day 365. -/
theorem isLeapYear_of_last {d : Int} (h0 : 0 ≤ d) (h1 : d < daysPerCycle)
    (hlast : d - daysBeforeYear (yearOfCycle d) = 365) :
    isLeapYear (yearOfCycle d + 1) = true := by
  obtain ⟨c, p, y, r, hparts, hyear⟩ := exists_parts h0 h1
  rw [hyear, hparts.sub_daysBeforeYear] at hlast
  obtain ⟨hthird, hcentury⟩ := hparts.last hlast
  obtain ⟨hp0, hp⟩ := hparts.period
  rw [hyear, hthird, isLeapYear, decide_eq_true_eq]
  -- the next year is the first of a period, or of the next century
  omega

theorem isLeapYear_cycle (cycle year : Int) : isLeapYear (cycle * 400 + year) = isLeapYear year := by
  simp only [isLeapYear, decide_eq_decide]
  omega

/-- The days of a March year are dates of the calendar. -/
theorem isValid_ofMarchYear {year day : Int} (h0 : 0 ≤ day) (h1 : day ≤ 365)
    (hlast : day = 365 → isLeapYear (year + 1) = true) : (ofMarchYear year day).IsValid := by
  have hm0 : 0 ≤ (5 * day + 2) / 153 := by omega
  have hm11 : (5 * day + 2) / 153 ≤ 11 := by omega
  have hfirst : daysBeforeMonth ((5 * day + 2) / 153) ≤ day := by
    rw [daysBeforeMonth]
    omega
  have hnext : day < daysBeforeMonth ((5 * day + 2) / 153 + 1) := by
    rw [daysBeforeMonth]
    omega
  simp only [ofMarchYear]
  generalize (5 * day + 2) / 153 = m at *
  by_cases hm : m ≤ 10
  · have hlength := daysBeforeMonth_succ hm0 hm
    split
    · next hlt =>
      have := hlength year
      rw [if_pos hlt] at this
      constructor <;> dsimp only <;> omega
    · next hlt =>
      have := hlength (year + 1)
      rw [if_neg hlt] at this
      constructor <;> dsimp only <;> omega
  · -- only in February it matters which year it is
    obtain rfl : m = 11 := by omega
    have hlength : day ≤ 336 + daysInMonth (year + 1) 2 := by
      simp only [daysInMonth, if_true]
      split
      · exact h1
      · next hnot =>
        have hne : day ≠ 365 := fun heq => hnot (hlast heq)
        omega
    have hbefore : daysBeforeMonth 11 = 337 := rfl
    rw [hbefore] at hfirst ⊢
    rw [if_neg (by decide), show (11 : Int) - 9 = 2 by decide]
    constructor <;> dsimp only <;> omega

/-- The date found for a day is one of the calendar. -/
theorem isValid_ofDayNumber (n : Int) : (ofDayNumber n).IsValid := by
  have hd0 : 0 ≤ (n + epochOffset) % daysPerCycle := Int.emod_nonneg _ (by decide)
  have hd1 : (n + epochOffset) % daysPerCycle < daysPerCycle := Int.emod_lt_of_pos _ (by decide)
  obtain ⟨-, -, h0, h1⟩ := yearOfCycle_bounds hd0 hd1
  refine isValid_ofMarchYear h0 h1 fun hlast => ?_
  rw [Int.add_assoc, isLeapYear_cycle]
  exact isLeapYear_of_last hd0 hd1 hlast

/-! ### Counting the days -/

/-- The first of January 1970. -/
def epoch : Date := ⟨1970, 1, 1⟩

/-- Whether a date lies that many days after the first of January 1970,
or before it if the number is negative. -/
def IsDay (d : Date) : Int → Prop
  | .ofNat n => next^[n] epoch = d
  | .negSucc n => next^[n + 1] d = epoch

theorem isValid_epoch : epoch.IsValid := by
  constructor <;> decide

theorem isValid_iterate {d : Date} (h : d.IsValid) (n : Nat) : (next^[n] d).IsValid := by
  induction n with
  | zero => exact h
  | succ n ih =>
    rw [Function.iterate_succ_apply']
    exact isValid_next ih

theorem dayNumber_iterate {d : Date} (h : d.IsValid) (n : Nat) :
    (next^[n] d).dayNumber = d.dayNumber + n := by
  induction n with
  | zero => exact (Int.add_zero _).symm
  | succ n ih =>
    rw [Function.iterate_succ_apply', dayNumber_next (isValid_iterate h n), ih]
    omega

/-- The days that are leafed over are as many as the number of the date
says. -/
theorem isDay_iff {d : Date} (h : d.IsValid) (n : Int) : d.IsDay n ↔ d.dayNumber = n := by
  have hepoch : epoch.dayNumber = 0 := by decide
  -- leafing on begins at the epoch, and leafing back at the date
  cases n with
  | ofNat n =>
    have hnumber := dayNumber_iterate isValid_epoch n
    constructor
    · rintro rfl
      rw [hnumber, hepoch, Int.zero_add]
      rfl
    · intro heq
      refine dayNumber_injective (isValid_iterate isValid_epoch n) h ?_
      rw [hnumber, hepoch, heq, Int.zero_add]
      rfl
  | negSucc n =>
    have hnumber := dayNumber_iterate h (n + 1)
    constructor
    · intro heq
      rw [IsDay] at heq
      rw [heq, hepoch] at hnumber
      omega
    · intro heq
      refine dayNumber_injective (isValid_iterate h (n + 1)) isValid_epoch ?_
      omega

end Date

end AtomProbe.Calendar
