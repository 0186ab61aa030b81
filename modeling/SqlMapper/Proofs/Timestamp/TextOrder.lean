import Mathlib.Data.String.Basic
import SqlMapper.Proofs.Timestamp.Calendar
import SqlMapper.Sql.Token
/-!
# TextOrder — timestamps that are compared as texts

A database that gets a timestamp as text compares it character by character.  Numbers of one width with leading zeros
compare like the numbers (`fixedDigits_append_lt_iff`), so texts that list the fields from the year down compare like
the fields, and those of a leap second stand behind second 59.  What a text leaves out is finer than its last field.
So two bound texts compare as their timestamps do, to the unit of the dialect (`Dialect.timestampText_lt_iff`).
-/
namespace SqlMapper

/-! ## Digits -/

theorem digitChar_lt_iff {m n : Nat} (hm : m < 10) (hn : n < 10) : Nat.digitChar m < Nat.digitChar n ↔ m < n := by
  show (Nat.digitChar m).toNat < (Nat.digitChar n).toNat ↔ m < n
  rw [Nat.toNat_digitChar_of_lt_ten hm, Nat.toNat_digitChar_of_lt_ten hn]
  exact Nat.add_lt_add_iff_left

theorem digitChar_eq_iff {m n : Nat} (hm : m < 10) (hn : n < 10) : Nat.digitChar m = Nat.digitChar n ↔ m = n := by
  rw [← Char.toNat_inj, Nat.toNat_digitChar_of_lt_ten hm, Nat.toNat_digitChar_of_lt_ten hn]
  exact Nat.add_left_cancel_iff

/-- Numbers of one width compare first, and what follows them second. -/
theorem fixedDigits_append_lt_iff {width m n : Nat} (hm : m < 10 ^ width) (hn : n < 10 ^ width) (s s' : List Char) :
    fixedDigits width m ++ s < fixedDigits width n ++ s' ↔ m < n ∨ m = n ∧ s < s' := by
  induction width generalizing m n s s' with
  | zero =>
    obtain rfl : m = 0 := by omega
    obtain rfl : n = 0 := by omega
    simp [fixedDigits]
  | succ width ih =>
    have hm' : m / 10 < 10 ^ width := by omega
    have hn' : n / 10 < 10 ^ width := by omega
    rw [fixedDigits, fixedDigits, List.append_assoc, List.append_assoc, ih hm' hn', List.singleton_append,
      List.singleton_append, List.cons_lt_cons_iff, digitChar_lt_iff (by omega) (by omega),
      digitChar_eq_iff (by omega) (by omega)]
    by_cases hs : s < s' <;> simp only [hs, and_true, and_false, or_false] <;> omega

/-! ## Fields -/

/-- How many nanoseconds the last place of a bound timestamp stands for. -/
def Dialect.timestampUnit : Dialect → Nat
  | sqlServer => 1000000
  | _ => 1000000000

namespace Timestamp

variable {t u : Timestamp}

theorem yearText_of_range {year : Int} (h : 0 ≤ year ∧ year ≤ 9999) : yearText year = fixedDigits 4 year.natAbs :=
  if_pos h

theorem writtenSecond_lt (t : Timestamp) : t.writtenSecond < 100 := by
  have := t.time_range
  have := t.nanosecond_range
  rw [writtenSecond]
  omega

theorem writtenSecond_eq (t : Timestamp) : t.writtenSecond = t.nanosecondOfMinute / 1000000000 := by
  rw [writtenSecond, nanosecondOfMinute]
  omega

theorem milliseconds_eq (t : Timestamp) :
    t.writtenSecond * 1000 + t.fraction / 1000000 = t.nanosecondOfMinute / 1000000 := by
  rw [writtenSecond, fraction, nanosecondOfMinute]
  omega

/-- The fields down to the second compare first, and what follows them second. -/
theorem seconds_append_lt_iff (ht : 0 ≤ t.year ∧ t.year ≤ 9999) (hu : 0 ≤ u.year ∧ u.year ≤ 9999) (s s' : List Char) :
    t.seconds ++ s < u.seconds ++ s' ↔ t.minuteNumber < u.minuteNumber ∨ t.minuteNumber = u.minuteNumber ∧
      (t.writtenSecond < u.writtenSecond ∨ t.writtenSecond = u.writtenSecond ∧ s < s') := by
  have hty := t.month_range
  have huy := u.month_range
  have htd := Nat.le_trans t.day_range.2 (daysInMonth_le _ _)
  have hud := Nat.le_trans u.day_range.2 (daysInMonth_le _ _)
  have htt := t.time_range
  have hut := u.time_range
  have hts := writtenSecond_lt t
  have hus := writtenSecond_lt u
  simp (disch := omega) only [seconds, yearText_of_range ht, yearText_of_range hu, List.append_assoc, List.cons_append,
    fixedDigits_append_lt_iff, List.cons_lt_cons_iff, lt_self_iff_false, false_or, true_and]
  have hyear : t.year.natAbs < u.year.natAbs ↔ t.year < u.year := by omega
  have hyear' : t.year.natAbs = u.year.natAbs ↔ t.year = u.year := by omega
  rw [minuteNumber_lt_iff, minuteNumber_eq_iff, dayNumber_lt_iff, dayNumber_eq_iff, hyear, hyear']
  simp only [and_or_left, or_assoc, and_assoc]

end Timestamp

/-! ## Bound texts -/

variable {t u : Timestamp}

/-- Bound texts compare as the minutes do, and in one minute as the units of the dialect. -/
theorem Dialect.timestampText_lt_iff (d : Dialect) (ht : 0 ≤ t.year ∧ t.year ≤ 9999) (hu : 0 ≤ u.year ∧ u.year ≤ 9999) :
    String.ofList (d.timestampText t) < String.ofList (d.timestampText u) ↔
      t.minuteNumber < u.minuteNumber ∨ t.minuteNumber = u.minuteNumber ∧
        t.nanosecondOfMinute / d.timestampUnit < u.nanosecondOfMinute / d.timestampUnit := by
  rw [String.lt_iff_toList_lt, String.toList_ofList, String.toList_ofList]
  have hseconds : t.seconds < u.seconds ↔ t.minuteNumber < u.minuteNumber ∨ t.minuteNumber = u.minuteNumber ∧
      t.nanosecondOfMinute / 1000000000 < u.nanosecondOfMinute / 1000000000 := by
    have h := Timestamp.seconds_append_lt_iff ht hu [] []
    simpa only [List.append_nil, lt_self_iff_false, and_false, or_false, Timestamp.writtenSecond_eq] using h
  cases d with
  | sqlServer =>
    have hft : t.fraction / 1000000 < 10 ^ 3 := by rw [Timestamp.fraction]; omega
    have hfu : u.fraction / 1000000 < 10 ^ 3 := by rw [Timestamp.fraction]; omega
    have hfraction := fixedDigits_append_lt_iff hft hfu [] []
    rw [List.append_nil, List.append_nil] at hfraction
    show t.milliseconds < u.milliseconds ↔ _
    rw [Timestamp.milliseconds, Timestamp.milliseconds, Timestamp.seconds_append_lt_iff ht hu,
      List.cons_lt_cons_iff, hfraction, Dialect.timestampUnit, ← Timestamp.milliseconds_eq, ← Timestamp.milliseconds_eq]
    have hplace : t.writtenSecond * 1000 + t.fraction / 1000000 < u.writtenSecond * 1000 + u.fraction / 1000000 ↔
        t.writtenSecond < u.writtenSecond ∨
          t.writtenSecond = u.writtenSecond ∧ t.fraction / 1000000 < u.fraction / 1000000 := by
      omega
    rw [hplace]
    simp only [lt_self_iff_false, and_false, or_false, false_or, true_and]
  | generic | postgresql | mysql | sqlite => exact hseconds

/-- **Bound timestamps are texts in the order of time.**  In every dialect, for all timestamps of the years 0 to 9999,
leap seconds included: a timestamp that is not later than another is bound as a text that does not stand behind the
other's, and the texts are equal exactly if the timestamps agree to the last unit that the dialect writes. -/
theorem Token.binding_timestamp_le (d : Dialect) (ht : 0 ≤ t.year ∧ t.year ≤ 9999) (hu : 0 ≤ u.year ∧ u.year ≤ 9999) :
    ∃ s s' : String, binding d (.timestamp t) = .text s ∧ binding d (.timestamp u) = .text s' ∧
      (t ≤ u → s ≤ s') ∧ (s = s' ↔ t.AgreesTo d.timestampUnit u) := by
  have hlt := d.timestampText_lt_iff ht hu
  have hgt := d.timestampText_lt_iff hu ht
  refine ⟨_, _, rfl, rfl, fun h => ?_, ?_⟩
  · rw [← not_lt, hgt]
    rcases Timestamp.le_iff.1 h with hminute | ⟨hminute, hplace⟩
    · omega
    · have := Nat.div_le_div_right (c := d.timestampUnit) hplace
      omega
  · rw [le_antisymm_iff, ← not_lt, ← not_lt, hlt, hgt, Timestamp.AgreesTo]
    omega

/-- Half a second into the leap second at the end of 2016. -/
def leapSecond2016 : Timestamp :=
  ⟨2016, 12, 31, 23, 59, 59, 1500000000, by decide, by decide, by decide, by decide⟩

/-- A moment later, in the new year. -/
def newYear2017 : Timestamp := ⟨2017, 1, 1, 0, 0, 0, 999, by decide, by decide, by decide, by decide⟩

theorem binding_timestamp_le_leapSecond :
    ((0 ≤ leapSecond2016.year ∧ leapSecond2016.year ≤ 9999) ∧ 0 ≤ newYear2017.year ∧ newYear2017.year ≤ 9999) ∧
      Token.binding .sqlServer (.timestamp leapSecond2016) = .text "2016-12-31 23:59:60.500" ∧
      Token.binding .sqlServer (.timestamp newYear2017) = .text "2017-01-01 00:00:00.000" ∧
      leapSecond2016 ≤ newYear2017 ∧ "2016-12-31 23:59:60.500" ≤ "2017-01-01 00:00:00.000" ∧
      ¬ leapSecond2016.AgreesTo Dialect.sqlServer.timestampUnit newYear2017 := by
  have hleap : 0 ≤ leapSecond2016.year ∧ leapSecond2016.year ≤ 9999 := by decide
  have hnew : 0 ≤ newYear2017.year ∧ newYear2017.year ≤ 9999 := by decide
  have hle : leapSecond2016 ≤ newYear2017 := by decide
  have hs : Token.binding .sqlServer (.timestamp leapSecond2016) = .text "2016-12-31 23:59:60.500" := by decide +kernel
  have hs' : Token.binding .sqlServer (.timestamp newYear2017) = .text "2017-01-01 00:00:00.000" := by decide +kernel
  obtain ⟨s, s', ht, hu, hordered, hequal⟩ := Token.binding_timestamp_le .sqlServer hleap hnew
  obtain rfl := Value.text.inj (ht.symm.trans hs)
  obtain rfl := Value.text.inj (hu.symm.trans hs')
  exact ⟨⟨hleap, hnew⟩, hs, hs', hle, hordered hle, fun h => absurd (hequal.2 h) (by decide)⟩

end SqlMapper
