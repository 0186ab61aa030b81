import SqlMapper.Timestamp.Basic
/-!
# Clock — timestamps from a count of seconds

The day is found in eras of 400 years, which all have 146097 days.  Years are counted from March, so that the leap day
is the last of its year and every month starts at a fixed day.
-/
namespace SqlMapper

/-- A day of a 400-year era that starts in March: years since the start of the era, days since the first of March. -/
structure EraDay where
  year : Nat
  day : Nat

/-- The day of an era by its number: centuries, then leap cycles, then years. -/
def EraDay.ofNumber (n : Nat) : EraDay :=
  let century := min (n / 36524) 3
  let inCentury := n - 36524 * century
  let cycle := inCentury / 1461
  let inCycle := inCentury % 1461
  let year := min (inCycle / 365) 3
  ⟨100 * century + 4 * cycle + year, inCycle - 365 * year⟩

/-- Months since March. -/
def EraDay.monthIndex (d : EraDay) : Nat := (5 * d.day + 2) / 153

def EraDay.month (d : EraDay) : Nat := if d.monthIndex < 10 then d.monthIndex + 3 else d.monthIndex - 9

def EraDay.dayOfMonth (d : EraDay) : Nat := d.day - (153 * d.monthIndex + 2) / 5 + 1

/-- The calendar year of a day in the given era. -/
def EraDay.calendarYear (d : EraDay) (era : Int) : Int :=
  400 * era + d.year + if d.monthIndex < 10 then 0 else 1

/-- Only a year that ends with a leap day has a day 365. -/
theorem EraDay.ofNumber_range {n : Nat} (h : n < 146097) :
    (ofNumber n).day ≤ 365 ∧ ((ofNumber n).day = 365 →
      ((ofNumber n).year + 1) % 4 = 0 ∧
        (((ofNumber n).year + 1) % 100 ≠ 0 ∨ ((ofNumber n).year + 1) % 400 = 0)) := by
  simp only [ofNumber]
  omega

theorem EraDay.month_range {d : EraDay} (h : d.day ≤ 365) : 1 ≤ d.month ∧ d.month ≤ 12 := by
  have : d.monthIndex ≤ 11 := by unfold monthIndex; omega
  unfold month
  split <;> omega

theorem EraDay.dayOfMonth_range {d : EraDay} (era : Int) (h : d.day ≤ 365)
    (leap : d.day = 365 → (d.year + 1) % 4 = 0 ∧ ((d.year + 1) % 100 ≠ 0 ∨ (d.year + 1) % 400 = 0)) :
    1 ≤ d.dayOfMonth ∧ d.dayOfMonth ≤ daysInMonth (d.calendarYear era) d.month := by
  obtain ⟨year, day⟩ := d
  simp only at h leap
  refine ⟨by unfold dayOfMonth; omega, ?_⟩
  obtain ⟨m, hm⟩ : ∃ m, (5 * day + 2) / 153 = m := ⟨_, rfl⟩
  simp only [dayOfMonth, month, calendarYear, monthIndex, hm]
  match m with
  | 0 | 1 | 2 | 3 | 4 | 5 | 6 | 7 | 8 | 9 | 10 => simp [daysInMonth]; omega
  | 11 =>
    simp only [Nat.reduceLT, ↓reduceIte, Nat.reduceSub, daysInMonth]
    split
    · omega
    · rename_i hl
      have : day ≠ 365 := fun hd => hl (by
        obtain ⟨h4, h100⟩ := leap hd
        simp only [isLeapYear, Bool.and_eq_true, beq_iff_eq, Bool.or_eq_true, bne_iff_ne, ne_eq]
        omega)
      omega
  | m + 12 => omega

/-- The second of the given number since the start of 1970, before it if negative. -/
def Timestamp.ofUnixSeconds (s : Int) : Timestamp :=
  let number := s / 86400 + 719468
  let inDay := (s % 86400).toNat
  let era := number / 146097
  let n := (number % 146097).toNat
  have hn : n < 146097 := by omega
  let d := EraDay.ofNumber n
  { year := d.calendarYear era
    month := d.month
    day := d.dayOfMonth
    hour := inDay / 3600
    minute := inDay / 60 % 60
    second := inDay % 60
    nanosecond := 0
    month_range := EraDay.month_range (EraDay.ofNumber_range hn).1
    day_range := EraDay.dayOfMonth_range era (EraDay.ofNumber_range hn).1 (EraDay.ofNumber_range hn).2
    time_range := by omega
    nanosecond_range := .inl (by decide) }

end SqlMapper
