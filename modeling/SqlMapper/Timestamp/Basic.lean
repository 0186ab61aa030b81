import SqlMapper.Text.Numeral
/-!
# Timestamp — date and time without a zone

A day of the Gregorian calendar, extended to all years, and a time of day to the nanosecond.  A leap second counts its
nanoseconds on top of second 59, so it is written as second 60.
-/
namespace SqlMapper

def isLeapYear (year : Int) : Bool :=
  year % 4 == 0 && (year % 100 != 0 || year % 400 == 0)

def daysInMonth (year : Int) (month : Nat) : Nat :=
  if month = 2 then if isLeapYear year then 29 else 28
  else if month ∈ [4, 6, 9, 11] then 30 else 31

/-- A day with a time of day.  Clock libraries may let the nanoseconds pass one second at any second; here they do so
only at second 59, where a leap second is. -/
structure Timestamp where
  year : Int
  month : Nat
  day : Nat
  hour : Nat
  minute : Nat
  second : Nat
  nanosecond : Nat
  month_range : 1 ≤ month ∧ month ≤ 12
  day_range : 1 ≤ day ∧ day ≤ daysInMonth year month
  time_range : hour < 24 ∧ minute < 60 ∧ second < 60
  nanosecond_range : nanosecond < 1000000000 ∨ (second = 59 ∧ nanosecond < 2000000000)
  deriving DecidableEq, Repr

namespace Timestamp

/-- The timestamp with the given fields, if there is one. -/
def make? (year : Int) (month day hour minute second nanosecond : Nat) : Option Timestamp :=
  if h₁ : 1 ≤ month ∧ month ≤ 12 then
    if h₂ : 1 ≤ day ∧ day ≤ daysInMonth year month then
      if h₃ : hour < 24 ∧ minute < 60 ∧ second < 60 then
        if h₄ : nanosecond < 1000000000 ∨ (second = 59 ∧ nanosecond < 2000000000) then
          some ⟨year, month, day, hour, minute, second, nanosecond, h₁, h₂, h₃, h₄⟩
        else none
      else none
    else none
  else none

/-! ## Text -/

/-- The second as written, sixty for a leap second. -/
def writtenSecond (t : Timestamp) : Nat := t.second + t.nanosecond / 1000000000

/-- The nanoseconds of the written second. -/
def fraction (t : Timestamp) : Nat := t.nanosecond % 1000000000

/-- Four digits; outside 0 to 9999 a sign stands before them and there may be more. -/
def yearText (year : Int) : List Char :=
  let n := year.natAbs
  if 0 ≤ year ∧ year ≤ 9999 then fixedDigits 4 n
  else (if year < 0 then '-' else '+') :: if n ≤ 9999 then fixedDigits 4 n else digits n

def seconds (t : Timestamp) : List Char :=
  yearText t.year ++ '-' :: fixedDigits 2 t.month ++ '-' :: fixedDigits 2 t.day ++
    ' ' :: fixedDigits 2 t.hour ++ ':' :: fixedDigits 2 t.minute ++ ':' :: fixedDigits 2 t.writtenSecond

/-- Date and time with the whole milliseconds. -/
def milliseconds (t : Timestamp) : List Char :=
  t.seconds ++ '.' :: fixedDigits 3 (t.fraction / 1000000)

/-- Date and time with the fewest of three, six or nine places that are exact, or none. -/
def text (t : Timestamp) : List Char :=
  t.seconds ++
    if t.fraction = 0 then []
    else if t.fraction % 1000000 = 0 then '.' :: fixedDigits 3 (t.fraction / 1000000)
    else if t.fraction % 1000 = 0 then '.' :: fixedDigits 6 (t.fraction / 1000)
    else '.' :: fixedDigits 9 t.fraction

end Timestamp

end SqlMapper
