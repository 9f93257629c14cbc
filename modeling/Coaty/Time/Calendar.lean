import Mathlib.Tactic.Ring
import Mathlib.Tactic.NormNum

/-!
# The Gregorian calendar

Days are numbered from 1 January 1970, and the calendar is extended to all years. Every day has a year, a month and a day of the month, which make up its number again. Months are numbered from 0.
-/

namespace Calendar

def isLeapYear (year : Int) : Bool := year % 4 = 0 ∧ (year % 100 ≠ 0 ∨ year % 400 = 0)

/-- The number of the first day of the year. -/
def dayFromYear (year : Int) : Int :=
  365 * (year - 1970) + (year - 1969) / 4 - (year - 1901) / 100 + (year - 1601) / 400

/-- The year of a day. An estimate by the mean length of a year is off by one at most. -/
def yearFromDay (day : Int) : Int :=
  let year := 1970 + 400 * day / 146097
  if day < dayFromYear year then year - 1
  else if dayFromYear (year + 1) ≤ day then year + 1
  else year

def daysInMonth (isLeap : Bool) (month : Nat) : Nat :=
  match month with
  | 1 => if isLeap then 29 else 28
  | 3 | 5 | 8 | 10 => 30
  | _ => 31

/-- The days of a year before the month. -/
def daysBefore (isLeap : Bool) : Nat → Nat
  | 0 => 0
  | month + 1 => daysBefore isLeap month + daysInMonth isLeap month

/-- The last one of the first months that begins by the day of the year. -/
def monthUpTo (isLeap : Bool) (dayInYear : Nat) : Nat → Nat
  | 0 => 0
  | month + 1 => if daysBefore isLeap (month + 1) ≤ dayInYear then month + 1 else monthUpTo isLeap dayInYear month

def dayInYear (day : Int) : Nat := (day - dayFromYear (yearFromDay day)).toNat

def monthFromDay (day : Int) : Nat := monthUpTo (isLeapYear (yearFromDay day)) (dayInYear day) 11

def dateFromDay (day : Int) : Nat :=
  dayInYear day - daysBefore (isLeapYear (yearFromDay day)) (monthFromDay day) + 1

def makeDay (year : Int) (month date : Nat) : Int := dayFromYear year + daysBefore (isLeapYear year) month + date - 1

/-! ### Years -/

theorem dayFromYear_succ (year : Int) :
    dayFromYear (year + 1) = dayFromYear year + if isLeapYear year then 366 else 365 := by
  have hleap : isLeapYear year = true ↔ year % 4 = 0 ∧ (year % 100 ≠ 0 ∨ year % 400 = 0) := decide_eq_true_iff
  rw [dayFromYear, dayFromYear]
  split
  · rename_i h
    have h := hleap.mp h
    omega
  · rename_i h
    have h := mt hleap.mpr h
    omega

theorem dayFromYear_yearFromDay (day : Int) :
    dayFromYear (yearFromDay day) ≤ day ∧ day < dayFromYear (yearFromDay day + 1) := by
  simp only [yearFromDay]
  split
  · rename_i hbefore
    rw [sub_add_cancel]
    refine ⟨?_, hbefore⟩
    rw [dayFromYear]
    omega
  · rename_i hnot
    split
    · rename_i hafter
      refine ⟨hafter, ?_⟩
      rw [dayFromYear]
      omega
    · rename_i hnot'
      exact ⟨not_lt.mp hnot, not_le.mp hnot'⟩

theorem dayFromYear_add_dayInYear (day : Int) : dayFromYear (yearFromDay day) + dayInYear day = day := by
  have hle := (dayFromYear_yearFromDay day).1
  rw [dayInYear]
  omega

theorem dayInYear_lt (day : Int) : dayInYear day < if isLeapYear (yearFromDay day) then 366 else 365 := by
  have hday := dayFromYear_yearFromDay day
  rw [dayFromYear_succ] at hday
  rw [dayInYear]
  split
  · rename_i hleap
    rw [if_pos hleap] at hday
    omega
  · rename_i hleap
    rw [if_neg hleap] at hday
    omega

/-! ### Months -/

theorem daysInMonth_le (isLeap : Bool) (month : Nat) : daysInMonth isLeap month ≤ 31 := by
  rw [daysInMonth.eq_def]
  split
  · split
    · norm_num
    · norm_num
  · norm_num
  · norm_num
  · norm_num
  · norm_num
  · norm_num

theorem monthUpTo_le (isLeap : Bool) (dayInYear month : Nat) : monthUpTo isLeap dayInYear month ≤ month := by
  induction month with
  | zero => exact Nat.le_refl 0
  | succ month ih =>
    rw [monthUpTo]
    split
    · exact Nat.le_refl _
    · exact Nat.le_succ_of_le ih

theorem daysBefore_monthUpTo_le (isLeap : Bool) (dayInYear month : Nat) :
    daysBefore isLeap (monthUpTo isLeap dayInYear month) ≤ dayInYear := by
  induction month with
  | zero => exact Nat.zero_le _
  | succ month ih =>
    rw [monthUpTo]
    split
    · assumption
    · exact ih

theorem lt_daysBefore_monthUpTo_succ (isLeap : Bool) {dayInYear month : Nat}
    (h : dayInYear < daysBefore isLeap (month + 1)) :
    dayInYear < daysBefore isLeap (monthUpTo isLeap dayInYear month + 1) := by
  induction month with
  | zero => exact h
  | succ month ih =>
    rw [monthUpTo]
    split
    · exact h
    · rename_i hnot
      exact ih (not_le.mp hnot)

theorem monthFromDay_lt (day : Int) : monthFromDay day < 12 := Nat.lt_succ_of_le (monthUpTo_le _ _ _)

theorem one_le_dateFromDay (day : Int) : 1 ≤ dateFromDay day := Nat.le_add_left 1 _

theorem dateFromDay_le (day : Int) :
    dateFromDay day ≤ daysInMonth (isLeapYear (yearFromDay day)) (monthFromDay day) := by
  have hlast : dayInYear day < daysBefore (isLeapYear (yearFromDay day)) (11 + 1) := by
    have hlt := dayInYear_lt day
    cases hleap : isLeapYear (yearFromDay day) with
    | true =>
      rw [hleap] at hlt
      exact hlt
    | false =>
      rw [hleap] at hlt
      exact hlt
  have hlt := lt_daysBefore_monthUpTo_succ _ hlast
  have hle := daysBefore_monthUpTo_le (isLeapYear (yearFromDay day)) (dayInYear day) 11
  rw [daysBefore] at hlt
  rw [dateFromDay, monthFromDay]
  omega

theorem makeDay_of_day (day : Int) : makeDay (yearFromDay day) (monthFromDay day) (dateFromDay day) = day := by
  have hyear := dayFromYear_add_dayInYear day
  have hmonth := daysBefore_monthUpTo_le (isLeapYear (yearFromDay day)) (dayInYear day) 11
  rw [makeDay, dateFromDay, monthFromDay]
  omega

end Calendar
