import SqlMapper.Timestamp.Clock
/-!
# Calendar — the minute of a timestamp, and which of two timestamps is later

Days are counted from the year 0 and minutes through the days.  A minute with a leap second has sixty-one seconds, so a
timestamp is placed by the number of its minute and by the nanoseconds since the minute began.  Of two days the one that
is earlier by its fields, read from the year down, has the smaller number (`Timestamp.dayNumber_lt_iff`), and the clock
shows an earlier second as an earlier timestamp (`Timestamp.ofUnixSeconds_le_iff`).
-/
namespace SqlMapper

/-! ## Days -/

/-- Days from the start of the year 0 to the start of a year. -/
def daysBeforeYear (year : Int) : Int := 365 * year + (year + 3) / 4 - (year + 99) / 100 + (year + 399) / 400

/-- Days of the first months of a year. -/
def daysOfMonths (year : Int) : Nat → Nat
  | 0 => 0
  | months + 1 => daysOfMonths year months + daysInMonth year (months + 1)

theorem daysBeforeYear_succ (year : Int) : daysBeforeYear (year + 1) = daysBeforeYear year + daysOfMonths year 12 := by
  by_cases hleap : isLeapYear year = true
  · have hdays : daysOfMonths year 12 = 366 := by simp [daysOfMonths, daysInMonth, hleap]
    simp only [isLeapYear, Bool.and_eq_true, beq_iff_eq, Bool.or_eq_true, bne_iff_ne, ne_eq] at hleap
    rw [hdays, daysBeforeYear, daysBeforeYear]
    omega
  · have hdays : daysOfMonths year 12 = 365 := by simp [daysOfMonths, daysInMonth, hleap]
    simp only [isLeapYear, Bool.and_eq_true, beq_iff_eq, Bool.or_eq_true, bne_iff_ne, ne_eq] at hleap
    rw [hdays, daysBeforeYear, daysBeforeYear]
    omega

theorem daysBeforeYear_mono {year later : Int} (h : year ≤ later) : daysBeforeYear year ≤ daysBeforeYear later := by
  rw [daysBeforeYear, daysBeforeYear]
  omega

theorem daysOfMonths_mono (year : Int) {months more : Nat} (h : months ≤ more) :
    daysOfMonths year months ≤ daysOfMonths year more := by
  induction h with
  | refl => exact Nat.le_refl _
  | step _ ih => exact Nat.le_trans ih (Nat.le_add_right _ _)

theorem daysInMonth_le (year : Int) (month : Nat) : daysInMonth year month ≤ 31 := by
  rw [daysInMonth]
  split
  · split <;> omega
  · split <;> omega

namespace Timestamp

/-! ## The minute -/

/-- The number of the day; the first one of the year 0 has the number one. -/
def dayNumber (t : Timestamp) : Int := daysBeforeYear t.year + daysOfMonths t.year (t.month - 1) + t.day

/-- The number of the minute, counted through the days. -/
def minuteNumber (t : Timestamp) : Int := (t.dayNumber * 24 + t.hour) * 60 + t.minute

/-- The nanoseconds since the minute began.  A leap second is the sixtieth second of its minute. -/
def nanosecondOfMinute (t : Timestamp) : Nat := t.second * 1000000000 + t.nanosecond

/-- A timestamp is not later than another if its minute is earlier, or its place in the same minute is not later. -/
instance : LE Timestamp where
  le t u := t.minuteNumber < u.minuteNumber ∨
    t.minuteNumber = u.minuteNumber ∧ t.nanosecondOfMinute ≤ u.nanosecondOfMinute

/-- Two timestamps lie in the same minute, and in the same of the units that it is divided into. -/
def AgreesTo (unit : Nat) (t u : Timestamp) : Prop :=
  t.minuteNumber = u.minuteNumber ∧ t.nanosecondOfMinute / unit = u.nanosecondOfMinute / unit

instance (t u : Timestamp) : Decidable (t ≤ u) :=
  inferInstanceAs (Decidable (_ ∨ _))

instance (unit : Nat) (t u : Timestamp) : Decidable (t.AgreesTo unit u) :=
  inferInstanceAs (Decidable (_ ∧ _))

variable {t u : Timestamp}

theorem le_iff : t ≤ u ↔ t.minuteNumber < u.minuteNumber ∨
    t.minuteNumber = u.minuteNumber ∧ t.nanosecondOfMinute ≤ u.nanosecondOfMinute := Iff.rfl

/-- A day lies in its month. -/
theorem dayNumber_range (t : Timestamp) :
    daysBeforeYear t.year + daysOfMonths t.year (t.month - 1) < t.dayNumber ∧
      t.dayNumber ≤ daysBeforeYear t.year + daysOfMonths t.year t.month := by
  obtain ⟨m, hm⟩ : ∃ m, t.month = m + 1 := ⟨t.month - 1, by have := t.month_range; omega⟩
  have hday := t.day_range
  rw [hm] at hday
  rw [dayNumber, hm, Nat.add_sub_cancel, daysOfMonths]
  omega

theorem dayNumber_lt_of_year (h : t.year < u.year) : t.dayNumber < u.dayNumber := by
  have ht := (dayNumber_range t).2
  have hu := (dayNumber_range u).1
  have hmonths := daysOfMonths_mono t.year t.month_range.2
  have hyears := daysBeforeYear_mono (Int.add_one_le_iff.2 h)
  rw [daysBeforeYear_succ] at hyears
  omega

theorem dayNumber_lt_of_month (hy : t.year = u.year) (h : t.month < u.month) : t.dayNumber < u.dayNumber := by
  have ht := (dayNumber_range t).2
  have hu := (dayNumber_range u).1
  have hmonths := daysOfMonths_mono u.year (Nat.le_sub_one_of_lt h)
  rw [hy] at ht
  omega

/-- Days come in the order of their years, in a year in that of the months, and in a month in that of the days. -/
theorem dayNumber_lt_iff :
    t.dayNumber < u.dayNumber ↔
      t.year < u.year ∨ t.year = u.year ∧ (t.month < u.month ∨ t.month = u.month ∧ t.day < u.day) := by
  rcases Int.lt_trichotomy t.year u.year with hy | hy | hy
  · simp [hy, dayNumber_lt_of_year hy]
  · rcases Nat.lt_trichotomy t.month u.month with hm | hm | hm
    · simp [hy, hm, dayNumber_lt_of_month hy hm]
    · simp [dayNumber, hy, hm]
    · have := dayNumber_lt_of_month hy.symm hm
      omega
  · have := dayNumber_lt_of_year hy
    omega

theorem dayNumber_eq_iff : t.dayNumber = u.dayNumber ↔ t.year = u.year ∧ t.month = u.month ∧ t.day = u.day := by
  have htu := @dayNumber_lt_iff t u
  have hut := @dayNumber_lt_iff u t
  omega

theorem minuteNumber_lt_iff :
    t.minuteNumber < u.minuteNumber ↔ t.dayNumber < u.dayNumber ∨ t.dayNumber = u.dayNumber ∧
      (t.hour < u.hour ∨ t.hour = u.hour ∧ t.minute < u.minute) := by
  have ht := t.time_range
  have hu := u.time_range
  rw [minuteNumber, minuteNumber]
  omega

theorem minuteNumber_eq_iff :
    t.minuteNumber = u.minuteNumber ↔ t.dayNumber = u.dayNumber ∧ t.hour = u.hour ∧ t.minute = u.minute := by
  have ht := t.time_range
  have hu := u.time_range
  rw [minuteNumber, minuteNumber]
  omega

end Timestamp

/-! ## The clock -/

namespace EraDay

/-- The first of March is 306 days before the next year. -/
theorem daysOfMonths_fromMarch (year : Int) {monthIndex : Nat} (h : monthIndex ≤ 9) :
    daysBeforeYear year + daysOfMonths year (monthIndex + 2) =
      daysBeforeYear (year + 1) - 306 + (153 * monthIndex + 2) / 5 := by
  rw [daysBeforeYear_succ]
  match monthIndex with
  | 0 | 1 | 2 | 3 | 4 | 5 | 6 | 7 | 8 | 9 => simp [daysOfMonths, daysInMonth]; omega

/-- The number of a day in its era, counted from the first of March. -/
def number (d : EraDay) : Nat := 365 * d.year + d.year / 4 - d.year / 100 + d.day

theorem year_ofNumber_lt {n : Nat} (h : n < 146097) : (ofNumber n).year < 400 := by
  simp only [ofNumber]
  omega

theorem number_ofNumber {n : Nat} (h : n < 146097) : (ofNumber n).number = n := by
  obtain ⟨century, hcentury⟩ : ∃ century, min (n / 36524) 3 = century := ⟨_, rfl⟩
  obtain ⟨cycle, hcycle⟩ : ∃ cycle, (n - 36524 * century) / 1461 = cycle := ⟨_, rfl⟩
  obtain ⟨year, hyear⟩ : ∃ year, min ((n - 36524 * century) % 1461 / 365) 3 = year := ⟨_, rfl⟩
  have hfourths : (100 * century + 4 * cycle + year) / 4 = 25 * century + cycle := by omega
  have hhundredths : (100 * century + 4 * cycle + year) / 100 = century := by omega
  simp only [ofNumber, number, hcentury, hcycle, hyear, hfourths, hhundredths]
  omega

/-- Days before the month, and the day of the month, count on from the start of March. -/
theorem dayNumber_eq {d : EraDay} (era : Int) (hy : d.year < 400) (h : d.day ≤ 365) :
    daysBeforeYear (d.calendarYear era) + daysOfMonths (d.calendarYear era) (d.month - 1) + d.dayOfMonth =
      146097 * era + d.number + 61 := by
  have hyear : daysBeforeYear (400 * era + d.year + 1) - 305 + d.day = 146097 * era + d.number + 61 := by
    rw [daysBeforeYear, number]
    omega
  rw [← hyear]
  have hindex : d.monthIndex ≤ 11 := by unfold monthIndex; omega
  have hday : ((153 * d.monthIndex + 2) / 5 : Nat) + d.dayOfMonth = d.day + 1 := by
    unfold dayOfMonth monthIndex
    omega
  rw [calendarYear, month]
  by_cases hm : d.monthIndex < 10
  · have hmarch := daysOfMonths_fromMarch (400 * era + d.year) (Nat.le_of_lt_succ hm)
    rw [if_pos hm, if_pos hm, show d.monthIndex + 3 - 1 = d.monthIndex + 2 by omega, Int.add_zero, hmarch]
    omega
  · rw [if_neg hm, if_neg hm]
    rcases (by omega : d.monthIndex = 10 ∨ d.monthIndex = 11) with h10 | h11
    · rw [h10] at hday ⊢
      simp only [Nat.reduceSub, daysOfMonths]
      omega
    · rw [h11] at hday ⊢
      simp [daysOfMonths, daysInMonth]
      omega

end EraDay

namespace Timestamp

/-- The clock shows the minute that its seconds lie in; it counts from the day with the number 719529. -/
theorem minuteNumber_ofUnixSeconds (s : Int) : (ofUnixSeconds s).minuteNumber = s / 60 + 719529 * 1440 := by
  have hn : (((s / 86400 + 719468) % 146097).toNat) < 146097 := by omega
  have hdays := EraDay.dayNumber_eq ((s / 86400 + 719468) / 146097) (EraDay.year_ofNumber_lt hn)
    (EraDay.ofNumber_range hn).1
  rw [EraDay.number_ofNumber hn] at hdays
  simp only [minuteNumber, dayNumber, ofUnixSeconds]
  omega

theorem nanosecondOfMinute_ofUnixSeconds (s : Int) :
    ((ofUnixSeconds s).nanosecondOfMinute : Int) = s % 60 * 1000000000 := by
  simp only [nanosecondOfMinute, ofUnixSeconds]
  omega

/-- **The clock shows an earlier second as an earlier timestamp.** -/
theorem ofUnixSeconds_le_iff {s s' : Int} : ofUnixSeconds s ≤ ofUnixSeconds s' ↔ s ≤ s' := by
  have hs := nanosecondOfMinute_ofUnixSeconds s
  have hs' := nanosecondOfMinute_ofUnixSeconds s'
  rw [le_iff, minuteNumber_ofUnixSeconds, minuteNumber_ofUnixSeconds]
  omega

end Timestamp

end SqlMapper
