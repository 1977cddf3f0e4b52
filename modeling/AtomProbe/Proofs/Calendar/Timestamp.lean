import AtomProbe.Metadata.Conversion
import AtomProbe.Proofs.Calendar.Date

/-!
# `AtomProbe.Proofs.Calendar.Timestamp`: timestamps are read back from their texts

A moment is a date of the calendar and a time of the day. It stands for
the seconds since the beginning of 1970 that the days up to its date and
its time of the day add up to (`IsAt`), and it is written with a fixed
number of digits for each of its parts (`letters`).

* `isAt_iff_eq_ofSeconds`: for each number of seconds there is exactly
  one moment.
* `iso8601_ofSeconds`: a timestamp is written as its moment, if the year
  has four digits.
* `letters_injective`, `letters_lt`: texts tell moments apart, and are
  ordered as they are.
* `iso8601_reads_back`: what a text says about its timestamp.

Numbers of a fixed number of digits are compared digit by digit from the
left (`fixed_append_lt`), so the parts have to be written from the year
down to the second.
-/

set_option autoImplicit false

namespace AtomProbe.Calendar

/-! ### Numbers of a fixed width -/

/-- The last `width` decimal digits of `n`. -/
def fixed : Nat → Nat → List Char
  | 0, _ => []
  | width + 1, n => fixed width (n / 10) ++ [(n % 10).digitChar]

theorem length_fixed (width n : Nat) : (fixed width n).length = width := by
  induction width generalizing n with
  | zero => rfl
  | succ width ih => rw [fixed, List.length_append, ih, List.length_singleton]

theorem fixed_zero (width : Nat) : fixed width 0 = List.replicate width '0' := by
  induction width with
  | zero => rfl
  | succ width ih => rw [fixed, Nat.zero_div, ih, List.replicate_succ']; rfl

/-- Zeros in front fill a number up to its width. Induction on the
digits, from the last one to the first. -/
theorem padded_eq_fixed {width n : Nat} (h : n < 10 ^ (width + 1)) :
    padded (width + 1) n = fixed (width + 1) n := by
  induction width generalizing n with
  | zero =>
    have hn : n < 10 := by simpa using h
    rw [padded, Nat.toDigits_eq_if (by decide), if_pos hn, fixed, fixed, Nat.mod_eq_of_lt hn]
    rfl
  | succ width ih =>
    rw [fixed]
    -- a single digit has nothing but zeros in front of it
    by_cases hn : n < 10
    · rw [padded, Nat.toDigits_eq_if (by decide), if_pos hn, Nat.div_eq_of_lt hn,
        Nat.mod_eq_of_lt hn, fixed_zero]
      rfl
    · have hdiv : n / 10 < 10 ^ (width + 1) := by
        rw [Nat.pow_succ] at h
        omega
      have hlength : (Nat.toDigits 10 n).length = (Nat.toDigits 10 (n / 10)).length + 1 := by
        rw [Nat.toDigits_eq_if (by decide), if_neg hn, List.length_append, List.length_singleton]
      rw [← ih hdiv, padded, padded, hlength, Nat.add_sub_add_right,
        Nat.toDigits_eq_if (b := 10) (n := n) (by decide), if_neg hn, List.append_assoc]

theorem append_lt_append {as bs : List Char} (hlength : as.length = bs.length) (h : as < bs)
    (xs ys : List Char) : as ++ xs < bs ++ ys := by
  -- texts of the same length differ before either ends
  induction as generalizing bs with
  | nil =>
    rw [List.length_nil, eq_comm, List.length_eq_zero_iff] at hlength
    subst hlength
    exact absurd h (List.lt_irrefl [])
  | cons a as ih =>
    cases bs with
    | nil => cases hlength
    | cons b bs =>
      rw [List.cons_append, List.cons_append, List.cons_lt_cons_iff]
      rcases List.cons_lt_cons_iff.1 h with hlt | ⟨heq, hlt⟩
      · exact .inl hlt
      · exact .inr ⟨heq, ih (Nat.succ.inj hlength) hlt⟩

theorem fixed_lt {width m n : Nat} (hn : n < 10 ^ width) (h : m < n) :
    fixed width m < fixed width n := by
  induction width generalizing m n with
  | zero =>
    rw [Nat.pow_zero] at hn
    omega
  | succ width ih =>
    have hdiv : n / 10 < 10 ^ width := by
      rw [Nat.pow_succ] at hn
      omega
    rw [fixed, fixed]
    by_cases hlt : m / 10 < n / 10
    · have hlength : (fixed width (m / 10)).length = (fixed width (n / 10)).length := by
        rw [length_fixed, length_fixed]
      exact append_lt_append hlength (ih hdiv hlt) _ _
    · -- the numbers differ in the last digit only
      have hdigit : ∀ d, d < 10 → ∀ c, c < d → c.digitChar < d.digitChar := by decide
      have heq : m / 10 = n / 10 := by omega
      have hmod : m % 10 < n % 10 := by omega
      rw [heq]
      refine List.append_left_lt (List.cons_lt_cons_iff.2 (.inl ?_))
      exact hdigit _ (Nat.mod_lt n (by decide)) _ hmod

/-- Texts that begin with numbers of one width are compared by the
numbers first, and then by what stands behind the mark `c`. -/
theorem fixed_append_lt {width m n : Nat} (hn : n < 10 ^ width) {c : Char} {xs ys : List Char}
    (h : m < n ∨ m = n ∧ xs < ys) : fixed width m ++ c :: xs < fixed width n ++ c :: ys := by
  rcases h with hlt | ⟨rfl, hlt⟩
  · exact append_lt_append (by rw [length_fixed, length_fixed]) (fixed_lt hn hlt) _ _
  · exact List.append_left_lt (List.cons_lt_cons_iff.2 (.inr ⟨rfl, hlt⟩))

/-- The number is read back, and so is what stands behind the mark. -/
theorem fixed_append_inj {width m n : Nat} (hm : m < 10 ^ width) (hn : n < 10 ^ width) {c : Char}
    {xs ys : List Char} (h : fixed width m ++ c :: xs = fixed width n ++ c :: ys) :
    m = n ∧ xs = ys := by
  have hlength : (fixed width m).length = (fixed width n).length := by
    rw [length_fixed, length_fixed]
  obtain ⟨hfixed, hrest⟩ := List.append_inj h hlength
  refine ⟨?_, (List.cons.inj hrest).2⟩
  by_contra hne
  rcases Nat.lt_or_gt_of_ne hne with hlt | hlt
  · exact List.lt_irrefl _ (hfixed ▸ fixed_lt hn hlt)
  · exact List.lt_irrefl _ (hfixed ▸ fixed_lt hm hlt)

/-! ### Moments -/

/-- A time of a day of the calendar. -/
structure Moment where
  date : Date
  hour : Nat
  minute : Nat
  second : Nat
  isValid : date.IsValid
  hour_lt : hour < 24
  minute_lt : minute < 60
  second_lt : second < 60

namespace Moment

/-- The seconds since the beginning of the day. -/
def secondOfDay (m : Moment) : Nat := m.hour * 3600 + m.minute * 60 + m.second

/-- Whether the moment is that many seconds after the beginning of 1970,
or before it if the number is negative. -/
def IsAt (m : Moment) (seconds : Int) : Prop :=
  ∃ day, m.date.IsDay day ∧ day * 86400 + m.secondOfDay = seconds

/-- The moment that many seconds after the beginning of 1970. -/
def ofSeconds (seconds : Int) : Moment where
  date := .ofDayNumber (seconds / 86400)
  hour := (seconds % 86400).toNat / 3600
  minute := (seconds % 86400).toNat / 60 % 60
  second := (seconds % 86400).toNat % 60
  isValid := Date.isValid_ofDayNumber _
  hour_lt := by omega
  minute_lt := Nat.mod_lt _ (by decide)
  second_lt := Nat.mod_lt _ (by decide)

theorem date_ofSeconds (seconds : Int) :
    (ofSeconds seconds).date = .ofDayNumber (seconds / secondsPerDay) := rfl

theorem secondOfDay_ofSeconds (seconds : Int) :
    (ofSeconds seconds).secondOfDay = (seconds % secondsPerDay).toNat := by
  simp only [secondsPerDay, ofSeconds, secondOfDay]
  omega

theorem isAt_iff {m : Moment} {seconds : Int} :
    m.IsAt seconds ↔ m.date.dayNumber * 86400 + m.secondOfDay = seconds := by
  constructor
  · rintro ⟨day, hday, rfl⟩
    rw [(Date.isDay_iff m.isValid day).1 hday]
  · intro h
    exact ⟨_, (Date.isDay_iff m.isValid _).2 rfl, h⟩

theorem secondOfDay_lt (m : Moment) : m.secondOfDay < 86400 := by
  have := m.hour_lt
  have := m.minute_lt
  have := m.second_lt
  rw [secondOfDay]
  omega

/-- Moments with the same date and the same second of the day are the
same. -/
theorem ext_secondOfDay {m m' : Moment} (hdate : m.date = m'.date)
    (h : m.secondOfDay = m'.secondOfDay) : m = m' := by
  obtain ⟨date, hour, minute, second, isValid, hour_lt, minute_lt, second_lt⟩ := m
  obtain ⟨date', hour', minute', second', isValid', hour_lt', minute_lt', second_lt'⟩ := m'
  simp only [secondOfDay] at hdate h
  rw [mk.injEq]
  exact ⟨hdate, by omega, by omega, by omega⟩

theorem isAt_ofSeconds (seconds : Int) : (ofSeconds seconds).IsAt seconds := by
  rw [isAt_iff, date_ofSeconds, secondOfDay_ofSeconds, Date.dayNumber_ofDayNumber]
  simp only [secondsPerDay]
  omega

theorem eq_of_isAt {m m' : Moment} {seconds : Int} (h : m.IsAt seconds) (h' : m'.IsAt seconds) :
    m = m' := by
  rw [isAt_iff] at h h'
  have hlt := m.secondOfDay_lt
  have hlt' := m'.secondOfDay_lt
  refine ext_secondOfDay (Date.dayNumber_injective m.isValid m'.isValid ?_) ?_
  · omega
  · omega

/-- For each number of seconds there is exactly one moment. -/
theorem isAt_iff_eq_ofSeconds {m : Moment} {seconds : Int} :
    m.IsAt seconds ↔ m = ofSeconds seconds := by
  constructor
  · exact fun h => eq_of_isAt h (isAt_ofSeconds seconds)
  · rintro rfl
    exact isAt_ofSeconds seconds

/-! ### The text of a moment -/

/-- The letters of the time of the day, and of the offset from universal
time, which is none. -/
def timeLetters (m : Moment) : List Char :=
  fixed 2 m.hour ++ ':' :: (fixed 2 m.minute ++ ':' :: (fixed 2 m.second ++
    '+' :: ['0', '0', ':', '0', '0']))

/-- The letters of a moment: a sign before a negative year, four digits
for the year, two for the month, the day, the hour, the minute and the
second, and the offset. -/
def letters (m : Moment) : List Char :=
  (if m.date.year < 0 then ['-'] else []) ++ (fixed 4 m.date.year.natAbs ++
    '-' :: (fixed 2 m.date.month.toNat ++ '-' :: (fixed 2 m.date.day.toNat ++
      'T' :: m.timeLetters)))

/-- The month and the day of the month have two digits. -/
theorem date_lt (m : Moment) : m.date.month.toNat < 10 ^ 2 ∧ m.date.day.toNat < 10 ^ 2 := by
  have := m.isValid.month_le
  have := m.isValid.day_le
  have := daysInMonth_bounds m.date.year m.date.month
  omega

/-- The hour, the minute and the second have two digits. -/
theorem time_lt (m : Moment) : m.hour < 10 ^ 2 ∧ m.minute < 10 ^ 2 ∧ m.second < 10 ^ 2 := by
  have := m.hour_lt
  have := m.minute_lt
  have := m.second_lt
  omega

/-- The text of the date and that of the second of the day. -/
theorem write_eq_letters {m : Moment} (hyear : m.date.year.natAbs < 10 ^ 4) :
    m.date.write ++ 'T' :: writeTime m.secondOfDay ++ ['+', '0', '0', ':', '0', '0'] =
      m.letters := by
  have hdate := m.date_lt
  have htime := m.time_lt
  have hhour : m.secondOfDay / 3600 = m.hour := by
    have := m.minute_lt
    have := m.second_lt
    rw [secondOfDay]
    omega
  have hminute : m.secondOfDay / 60 % 60 = m.minute := by
    have := m.minute_lt
    have := m.second_lt
    rw [secondOfDay]
    omega
  have hsecond : m.secondOfDay % 60 = m.second := by
    have := m.second_lt
    rw [secondOfDay]
    omega
  rw [Date.write, writeTime, letters, timeLetters, hhour, hminute, hsecond,
    padded_eq_fixed hyear, padded_eq_fixed hdate.1, padded_eq_fixed hdate.2,
    padded_eq_fixed htime.1, padded_eq_fixed htime.2.1, padded_eq_fixed htime.2.2]
  simp only [List.append_assoc, List.cons_append]

/-- Whether a year has four digits. -/
theorem isWritableYear_iff (year : Int) :
    isWritableYear year = true ↔ -9999 ≤ year ∧ year ≤ 9999 := by
  rw [isWritableYear, Bool.and_eq_true, decide_eq_true_eq, decide_eq_true_eq]

/-- A timestamp is written as its moment, if the year has four digits. -/
theorem iso8601_ofSeconds (s : Int64) :
    iso8601 s =
      if -9999 ≤ (ofSeconds s.toInt).date.year ∧ (ofSeconds s.toInt).date.year ≤ 9999 then
        .ok (String.ofList (ofSeconds s.toInt).letters)
      else .error (.timestampRange s) := by
  have htext : iso8601? s.toInt =
      if isWritableYear (ofSeconds s.toInt).date.year = true then
        some (String.ofList ((ofSeconds s.toInt).date.write ++
          'T' :: writeTime (ofSeconds s.toInt).secondOfDay ++ ['+', '0', '0', ':', '0', '0']))
      else none := by
    simp only [iso8601?, ← secondOfDay_ofSeconds, ← date_ofSeconds]
  -- the equation of `iso8601` would be proved by computing the date
  delta iso8601
  rw [htext]
  by_cases hyear : -9999 ≤ (ofSeconds s.toInt).date.year ∧ (ofSeconds s.toInt).date.year ≤ 9999
  · rw [if_pos hyear, if_pos ((isWritableYear_iff _).2 hyear), write_eq_letters (by omega)]
  · rw [if_neg hyear, if_neg fun h => hyear ((isWritableYear_iff _).1 h)]

/-! ### Texts tell moments apart, and keep their order -/

theorem length_letters (m : Moment) :
    m.letters.length = (if m.date.year < 0 then 1 else 0) + 25 := by
  simp only [letters, timeLetters, List.length_append, List.length_cons, List.length_nil,
    length_fixed]
  split <;> rfl

/-- Texts tell moments apart. The sign of the year is seen from the
length of the text, and then one part after the other is read back. -/
theorem letters_injective {m m' : Moment} (hyear : m.date.year.natAbs < 10 ^ 4)
    (hyear' : m'.date.year.natAbs < 10 ^ 4) (h : m.letters = m'.letters) : m = m' := by
  have hlength := congrArg List.length h
  rw [length_letters, length_letters] at hlength
  have hsign : m.date.year < 0 ↔ m'.date.year < 0 := by
    split at hlength <;> split at hlength <;> omega
  have hdate := m.date_lt
  have hdate' := m'.date_lt
  have htime := m.time_lt
  have htime' := m'.time_lt
  simp only [letters, timeLetters, hsign] at h
  obtain ⟨hy, h⟩ := fixed_append_inj hyear hyear' (List.append_cancel_left h)
  obtain ⟨hmonth, h⟩ := fixed_append_inj hdate.1 hdate'.1 h
  obtain ⟨hday, h⟩ := fixed_append_inj hdate.2 hdate'.2 h
  obtain ⟨hhour, h⟩ := fixed_append_inj htime.1 htime'.1 h
  obtain ⟨hminute, h⟩ := fixed_append_inj htime.2.1 htime'.2.1 h
  obtain ⟨hsecond, -⟩ := fixed_append_inj htime.2.2 htime'.2.2 h
  refine ext_secondOfDay (Date.ext_parts ?_ ?_ ?_) ?_
  · omega
  · have := m.isValid.one_le_month
    have := m'.isValid.one_le_month
    omega
  · have := m.isValid.one_le_day
    have := m'.isValid.one_le_day
    omega
  · rw [secondOfDay, secondOfDay, hhour, hminute, hsecond]

/-- The later second of the day has the larger text. -/
theorem timeLetters_lt {m m' : Moment} (h : m.secondOfDay < m'.secondOfDay) :
    m.timeLetters < m'.timeLetters := by
  have htime := m'.time_lt
  have hminute := m.minute_lt
  have hminute' := m'.minute_lt
  have hsecond := m.second_lt
  have hsecond' := m'.second_lt
  simp only [secondOfDay] at h
  refine fixed_append_lt htime.1 ?_
  by_cases hhour : m.hour < m'.hour
  · exact .inl hhour
  · refine .inr ⟨by omega, fixed_append_lt htime.2.1 ?_⟩
    by_cases hmin : m.minute < m'.minute
    · exact .inl hmin
    · exact .inr ⟨by omega, fixed_append_lt htime.2.2 (.inl (by omega))⟩

/-- From year zero on, the later of two moments has the larger text. -/
theorem letters_lt {m m' : Moment} (hyear : 0 ≤ m.date.year) (hyear' : 0 ≤ m'.date.year)
    (hlt : m'.date.year ≤ 9999) {seconds seconds' : Int} (hat : m.IsAt seconds)
    (hat' : m'.IsAt seconds') (h : seconds < seconds') : m.letters < m'.letters := by
  rw [isAt_iff] at hat hat'
  have hdate := m'.date_lt
  have hmonth := m.isValid.one_le_month
  have hday := m.isValid.one_le_day
  simp only [letters, if_neg (Int.not_lt.2 hyear), if_neg (Int.not_lt.2 hyear'), List.nil_append]
  have hfour : m'.date.year.natAbs < 10 ^ 4 := by omega
  refine fixed_append_lt hfour ?_
  by_cases hsame : m.date.dayNumber < m'.date.dayNumber
  · rcases Date.before_of_dayNumber_lt m.isValid m'.isValid hsame with hy | ⟨hy, hm | ⟨hm, hd⟩⟩
    · exact .inl (by omega)
    · exact .inr ⟨by omega, fixed_append_lt hdate.1 (.inl (by omega))⟩
    · refine .inr ⟨by omega, fixed_append_lt hdate.1 (.inr ⟨by omega, ?_⟩)⟩
      exact fixed_append_lt hdate.2 (.inl (by omega))
  · -- on the same date the time of the day decides
    have hsecond := m.secondOfDay_lt
    have hsecond' := m'.secondOfDay_lt
    have heq : m.date = m'.date :=
      Date.dayNumber_injective m.isValid m'.isValid (by omega)
    rw [heq] at hat ⊢
    refine .inr ⟨rfl, fixed_append_lt hdate.1 (.inr ⟨rfl, ?_⟩)⟩
    exact fixed_append_lt hdate.2 (.inr ⟨rfl, timeLetters_lt (by omega)⟩)

end Moment

/-! ### What a text says -/

theorem of_iso8601_eq_ok {m : Moment} {s : Int64} (h : m.IsAt s.toInt) {text : String}
    (htext : iso8601 s = .ok text) :
    (-9999 ≤ m.date.year ∧ m.date.year ≤ 9999) ∧ text = String.ofList m.letters := by
  obtain rfl := Moment.isAt_iff_eq_ofSeconds.1 h
  rw [Moment.iso8601_ofSeconds] at htext
  split at htext
  · next hyear =>
    cases htext
    exact ⟨hyear, rfl⟩
  · cases htext

/-- Each timestamp is a moment of its own: a date of the calendar, whose
days since the first of January 1970 are counted, and a time of the day.
It has a text if and only if its year has at most four digits, and the
text holds the parts of the moment. Different timestamps have different
texts, and from year zero on the texts are ordered as the timestamps. -/
theorem iso8601_reads_back :
    (∀ s : Int64, ∃ m : Moment, (∀ m' : Moment, m'.IsAt s.toInt ↔ m' = m) ∧
      iso8601 s =
        if -9999 ≤ m.date.year ∧ m.date.year ≤ 9999 then .ok (String.ofList m.letters)
        else .error (.timestampRange s)) ∧
    (∀ (s s' : Int64) (text : String), iso8601 s = .ok text → iso8601 s' = .ok text → s = s') ∧
    ∀ (s s' : Int64) (m m' : Moment) (text text' : String), m.IsAt s.toInt → m'.IsAt s'.toInt →
      0 ≤ m.date.year → 0 ≤ m'.date.year → iso8601 s = .ok text → iso8601 s' = .ok text' →
        (text < text' ↔ s < s') := by
  refine ⟨fun s => ⟨.ofSeconds s.toInt, fun m => Moment.isAt_iff_eq_ofSeconds,
    Moment.iso8601_ofSeconds s⟩, fun s s' text hs hs' => ?_,
    fun s s' m m' text text' hm hm' hyear hyear' hs hs' => ?_⟩
  · have hat := Moment.isAt_ofSeconds s.toInt
    have hat' := Moment.isAt_ofSeconds s'.toInt
    obtain ⟨hyear, rfl⟩ := of_iso8601_eq_ok hat hs
    obtain ⟨hyear', hletters⟩ := of_iso8601_eq_ok hat' hs'
    have hmoment := Moment.letters_injective (by omega) (by omega)
      (String.ofList_injective hletters)
    rw [hmoment, Moment.isAt_iff] at hat
    rw [Moment.isAt_iff] at hat'
    exact Int64.toInt_inj.1 (hat.symm.trans hat')
  · obtain ⟨hrange, rfl⟩ := of_iso8601_eq_ok hm hs
    obtain ⟨hrange', rfl⟩ := of_iso8601_eq_ok hm' hs'
    rw [String.lt_iff, String.toList_ofList, String.toList_ofList, Int64.lt_iff_toInt_lt]
    constructor
    · intro hlt
      -- otherwise the texts are equal, or ordered the other way
      by_contra hnot
      rcases Int.lt_or_eq_of_le (Int.not_lt.1 hnot) with hgt | heq
      · exact List.lt_asymm hlt (Moment.letters_lt hyear' hyear hrange.2 hm' hm hgt)
      · rw [heq] at hm'
        rw [Moment.eq_of_isAt hm hm'] at hlt
        exact List.lt_irrefl _ hlt
    · exact Moment.letters_lt hyear hyear' hrange'.2 hm hm'

/-- The last second of a leap day and the first one behind it. -/
theorem iso8601_reads_back_leapDay :
    ∃ m m' : Moment, m.IsAt (951868799 : Int64).toInt ∧ m'.IsAt (951868800 : Int64).toInt ∧
      m.date = ⟨2000, 2, 29⟩ ∧ m'.date = ⟨2000, 3, 1⟩ ∧
      iso8601 951868799 = .ok "2000-02-29T23:59:59+00:00" ∧
      iso8601 951868800 = .ok "2000-03-01T00:00:00+00:00" ∧
      ("2000-02-29T23:59:59+00:00" < "2000-03-01T00:00:00+00:00" ↔
        (951868799 : Int64) < 951868800) := by
  obtain ⟨m, hm, -⟩ := iso8601_reads_back.1 951868799
  obtain ⟨m', hm', -⟩ := iso8601_reads_back.1 951868800
  have hat := (hm m).2 rfl
  have hat' := (hm' m').2 rfl
  have hdate : m.date = ⟨2000, 2, 29⟩ := by
    rw [Moment.isAt_iff_eq_ofSeconds.1 hat]
    decide
  have hdate' : m'.date = ⟨2000, 3, 1⟩ := by
    rw [Moment.isAt_iff_eq_ofSeconds.1 hat']
    decide
  have htext : iso8601 951868799 = .ok "2000-02-29T23:59:59+00:00" := by decide
  have htext' : iso8601 951868800 = .ok "2000-03-01T00:00:00+00:00" := by decide
  exact ⟨m, m', hat, hat', hdate, hdate', htext, htext',
    iso8601_reads_back.2.2 _ _ m m' _ _ hat hat' (by rw [hdate]; decide) (by rw [hdate']; decide)
      htext htext'⟩

-- a year before year zero carries a sign, and the first day of the range has a text
example : iso8601 (-62167219201) = .ok "-0001-12-31T23:59:59+00:00" := by decide
example : iso8601 (-377705116800) = .ok "-9999-01-01T00:00:00+00:00" := by decide
example : iso8601 (-377705116801) = .error (.timestampRange (-377705116801)) := by decide

end AtomProbe.Calendar
