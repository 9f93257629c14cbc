import Coaty.Js.Double
import Coaty.Time.Iso8601

/-!
# Dates with their offset from UTC

A date is written in the local time of a time zone with the offset from UTC at the end. The year is not padded, and the hours of the offset are a quotient that is not rounded.
-/

namespace Coaty

namespace Dates

open Js Calendar Iso8601

/-! ### Dates -/

/-- How many minutes the local time is behind UTC at an instant. -/
abbrev TimeZone := Int → Int

/-- An instant in milliseconds, or none for an invalid date. -/
structure Date where
  time : Option Int
deriving DecidableEq

/-- `new Date(value)`, where `none` is `undefined`. -/
def Date.ofValue (value : Option Rat) : Date :=
  ⟨value.bind fun value => if |value| ≤ 8640000000000000 then some (value.num.tdiv value.den) else none⟩

section Date

variable (zone : TimeZone) (date : Date)

def localTime (t : Int) : Int := t - zone t * 60000

/-- A number that is read off the local time, or none for `NaN`. -/
def fromLocal (f : Int → Int) : Option Rat := date.time.map fun t => (f (localTime zone t) : Rat)

def getFullYear : Option Rat := fromLocal zone date fun t => yearFromDay (t / 86400000)

def getMonth : Option Rat := fromLocal zone date fun t => monthFromDay (t / 86400000)

def getDate : Option Rat := fromLocal zone date fun t => dateFromDay (t / 86400000)

def getHours : Option Rat := fromLocal zone date fun t => t / 3600000 % 24

def getMinutes : Option Rat := fromLocal zone date fun t => t / 60000 % 60

def getSeconds : Option Rat := fromLocal zone date fun t => t / 1000 % 60

def getMilliseconds : Option Rat := fromLocal zone date fun t => t % 1000

def getTimezoneOffset : Option Int := date.time.map zone

end Date

/-- `"" + n` -/
def stringOf : Option Rat → Text
  | none => text "NaN"
  | some n => numberText n

def pad (n : Option Rat) (length : Nat) : Text := (stringOf n).leftpad length (unit '0')

def getOffsetFromUTC (offset : Option Int) : Text :=
  if offset = some 0 then text "Z"
  else
    unit (if offset.any (· < 0) then '+' else '-') ::
      pad (offset.map fun offset : Int => |roundToDouble ((offset : Rat) / 60)|) 2 ++
      unit ':' :: pad (offset.map fun offset : Int => |((offset.tmod 60 : Int) : Rat)|) 2

def toLocalIsoString (zone : TimeZone) (date : Date) (includeMillis : Bool) : Text :=
  stringOf (getFullYear zone date) ++ unit '-' ::
    pad ((getMonth zone date).map (· + 1)) 2 ++ unit '-' ::
    pad (getDate zone date) 2 ++ unit 'T' ::
    pad (getHours zone date) 2 ++ unit ':' ::
    pad (getMinutes zone date) 2 ++ unit ':' ::
    pad (getSeconds zone date) 2 ++
    (if includeMillis then unit '.' :: pad (getMilliseconds zone date) 3 else []) ++
    getOffsetFromUTC (getTimezoneOffset zone date)

/-! ### The date that is written -/

def localYear (zone : TimeZone) (t : Int) : Int := yearFromDay (localTime zone t / 86400000)

/-- The offset in whole hours. -/
def offsetOf (offset : Int) : Offset :=
  if offset = 0 then .utc else .shifted (decide (0 < offset)) (offset.natAbs / 60) 0

def dateTimeOf (zone : TimeZone) (t : Int) (includeMillis : Bool) : DateTime where
  year := (localYear zone t).toNat
  month := monthFromDay (localTime zone t / 86400000) + 1
  day := dateFromDay (localTime zone t / 86400000)
  hour := (localTime zone t / 3600000 % 24).toNat
  minute := (localTime zone t / 60000 % 60).toNat
  second := (localTime zone t / 1000 % 60).toNat
  millisecond := if includeMillis then some (localTime zone t % 1000).toNat else none
  offset := offsetOf (zone t)

/-- The instant, without its milliseconds if they are not included. -/
def truncated (t : Int) (includeMillis : Bool) : Int := if includeMillis then t else t / 1000 * 1000

section DateTimeOf

variable (zone : TimeZone) (t : Int) (includeMillis : Bool)

theorem stringOf_intCast {n : Int} (hn : 0 ≤ n) (hlt : n < 2 ^ 53) : stringOf (some (n : Rat)) = decimal n.toNat := by
  have hcast : (n : Rat) = (n.toNat : Rat) := by exact_mod_cast (Int.toNat_of_nonneg hn).symm
  rw [stringOf, hcast]
  exact numberText_natCast (by omega)

theorem pad_intCast {n : Int} (hn : 0 ≤ n) (hlt : n < 2 ^ 53) (length : Nat) :
    pad (some (n : Rat)) length = fixed length n.toNat := by
  rw [pad, stringOf_intCast hn hlt]
  rfl

theorem pad_natCast {n : Nat} (hn : n < 2 ^ 53) (length : Nat) : pad (some (n : Rat)) length = fixed length n := by
  rw [pad, stringOf, numberText_natCast hn]
  rfl

theorem dateFromDay_lt (day : Int) : dateFromDay day < 32 := by
  have hle := dateFromDay_le day
  have hmonth := daysInMonth_le (isLeapYear (yearFromDay day)) (monthFromDay day)
  omega

theorem toLocalIsoString_eq (hyear : 0 ≤ localYear zone t) (hlt : localYear zone t < 2 ^ 53) :
    toLocalIsoString zone ⟨some t⟩ includeMillis =
      decimal (localYear zone t).toNat ++ unit '-' :: ((dateTimeOf zone t includeMillis).middle ++
        (DateTime.fraction (dateTimeOf zone t includeMillis).millisecond ++ getOffsetFromUTC (some (zone t)))) := by
  have hmonth := monthFromDay_lt (localTime zone t / 86400000)
  have hday := dateFromDay_lt (localTime zone t / 86400000)
  have hyearText : stringOf (getFullYear zone ⟨some t⟩) = decimal (localYear zone t).toNat := stringOf_intCast hyear hlt
  have hmonthText : pad ((getMonth zone ⟨some t⟩).map (· + 1)) 2 =
      fixed 2 (monthFromDay (localTime zone t / 86400000) + 1) := by
    have hcast := pad_natCast (n := monthFromDay (localTime zone t / 86400000) + 1) (by omega) 2
    push_cast at hcast
    exact hcast
  have hdayText : pad (getDate zone ⟨some t⟩) 2 = fixed 2 (dateFromDay (localTime zone t / 86400000)) :=
    pad_natCast (by omega) 2
  have hhourText : pad (getHours zone ⟨some t⟩) 2 = fixed 2 (localTime zone t / 3600000 % 24).toNat :=
    @pad_intCast (localTime zone t / 3600000 % 24) (by omega) (by omega) 2
  have hminuteText : pad (getMinutes zone ⟨some t⟩) 2 = fixed 2 (localTime zone t / 60000 % 60).toNat :=
    @pad_intCast (localTime zone t / 60000 % 60) (by omega) (by omega) 2
  have hsecondText : pad (getSeconds zone ⟨some t⟩) 2 = fixed 2 (localTime zone t / 1000 % 60).toNat :=
    @pad_intCast (localTime zone t / 1000 % 60) (by omega) (by omega) 2
  have hmillisText : (if includeMillis then unit '.' :: pad (getMilliseconds zone ⟨some t⟩) 3 else []) =
      DateTime.fraction (dateTimeOf zone t includeMillis).millisecond := by
    cases includeMillis with
    | false => rfl
    | true =>
      have hmillis : pad (getMilliseconds zone ⟨some t⟩) 3 = fixed 3 (localTime zone t % 1000).toNat :=
        @pad_intCast (localTime zone t % 1000) (by omega) (by omega) 3
      exact congrArg (unit '.' :: ·) hmillis
  rw [toLocalIsoString, hyearText, hmonthText, hdayText, hhourText, hminuteText, hsecondText, hmillisText]
  simp only [DateTime.middle, dateTimeOf, List.append_assoc, List.cons_append]
  rfl

theorem millisecond_dateTimeOf_lt : ∀ n ∈ (dateTimeOf zone t includeMillis).millisecond, n < 10 ^ 3 := by
  intro n hn
  cases includeMillis with
  | false => cases hn
  | true =>
    obtain rfl := Option.some.inj hn
    show (localTime zone t % 1000).toNat < 10 ^ 3
    omega

theorem length_middle_dateTimeOf : (dateTimeOf zone t includeMillis).middle.length = 14 := by
  have hmonth := monthFromDay_lt (localTime zone t / 86400000)
  have hday := dateFromDay_lt (localTime zone t / 86400000)
  apply DateTime.length_middle
  · show monthFromDay (localTime zone t / 86400000) + 1 < 10 ^ 2
    omega
  · show dateFromDay (localTime zone t / 86400000) < 10 ^ 2
    omega
  · show (localTime zone t / 3600000 % 24).toNat < 10 ^ 2
    omega
  · show (localTime zone t / 60000 % 60).toNat < 10 ^ 2
    omega
  · show (localTime zone t / 1000 % 60).toNat < 10 ^ 2
    omega

theorem isValid_dateTimeOf (hyear : 0 ≤ localYear zone t) (hlt : localYear zone t < 10 ^ 4)
    (hoffset : (offsetOf (zone t)).IsValid) : (dateTimeOf zone t includeMillis).IsValid := by
  have hcast : ((localYear zone t).toNat : Int) = localYear zone t := Int.toNat_of_nonneg hyear
  have hmonth := monthFromDay_lt (localTime zone t / 86400000)
  refine ⟨?_, ⟨?_, ?_⟩, ⟨one_le_dateFromDay _, ?_⟩, ?_, ?_, ?_, millisecond_dateTimeOf_lt zone t includeMillis, hoffset⟩
  · show (localYear zone t).toNat < 10 ^ 4
    omega
  · exact Nat.le_add_left 1 _
  · show monthFromDay (localTime zone t / 86400000) + 1 ≤ 12
    omega
  · show _ ≤ daysInMonth (isLeapYear (localYear zone t).toNat) _
    rw [hcast]
    exact dateFromDay_le _
  · show (localTime zone t / 3600000 % 24).toNat < 24
    omega
  · show (localTime zone t / 60000 % 60).toNat < 60
    omega
  · show (localTime zone t / 1000 % 60).toNat < 60
    omega

theorem time_dateTimeOf (hyear : 0 ≤ localYear zone t) (hoffset : (offsetOf (zone t)).ahead = -zone t) :
    (dateTimeOf zone t includeMillis).time = truncated t includeMillis := by
  have hcast : ((localYear zone t).toNat : Int) = localYear zone t := Int.toNat_of_nonneg hyear
  have hday : makeDay (localYear zone t) (monthFromDay (localTime zone t / 86400000))
      (dateFromDay (localTime zone t / 86400000)) = localTime zone t / 86400000 := makeDay_of_day _
  have hlocal : localTime zone t = t - zone t * 60000 := rfl
  rw [DateTime.time]
  simp only [dateTimeOf, hoffset, hcast, Nat.add_sub_cancel, hday]
  cases includeMillis with
  | false =>
    rw [truncated, if_neg Bool.false_ne_true, if_neg Bool.false_ne_true, Option.getD_none]
    omega
  | true =>
    rw [truncated, if_pos rfl, if_pos rfl, Option.getD_some]
    omega

end DateTimeOf

/-! ### The offset that is written -/

section Offset

variable {z : Int}

theorem abs_intCast (z : Int) : |(z : Rat)| = ((z.natAbs : Nat) : Rat) := by
  rw [Nat.cast_natAbs, Int.cast_abs]

theorem isValid_offsetOf (hlt : |z| < 1440) : (offsetOf z).IsValid := by
  rw [offsetOf]
  split
  · trivial
  · refine ⟨?_, by norm_num⟩
    rw [abs_lt] at hlt
    omega

theorem ahead_offsetOf (hdvd : 60 ∣ z) : (offsetOf z).ahead = -z := by
  rw [offsetOf]
  split
  · rename_i hzero
    rw [hzero]
    rfl
  · rw [Offset.ahead]
    split
    · rename_i hpos
      rw [decide_eq_true_eq] at hpos
      omega
    · rename_i hneg
      rw [decide_eq_true_eq] at hneg
      omega

theorem getOffsetFromUTC_of_ne (hz : z ≠ 0) :
    getOffsetFromUTC (some z) = unit (if decide (0 < z) then '-' else '+') ::
      (pad (some (roundToDouble (|(z : Rat)| / 60))) 2 ++ unit ':' :: fixed 2 (z.natAbs % 60)) := by
  have hne : some z ≠ some 0 := fun h => hz (Option.some.inj h)
  have hsign : (if (some z).any (· < 0) then '+' else '-') = if decide (0 < z) then '-' else '+' := by
    obtain hneg | hpos := lt_or_gt_of_ne hz
    · have hnot : ¬0 < z := hneg.not_gt
      simp [hneg, hnot]
    · have hnot : ¬z < 0 := hpos.not_gt
      simp [hpos, hnot]
  have hhours : |roundToDouble ((z : Rat) / 60)| = roundToDouble (|(z : Rat)| / 60) := by
    rw [abs_roundToDouble, abs_div]
    norm_num
  have hminutes : |((z.tmod 60 : Int) : Rat)| = ((z.natAbs % 60 : Nat) : Rat) := by
    have hmod : |z.tmod 60| = ((z.natAbs % 60 : Nat) : Int) := by
      rw [← Int.natCast_natAbs, Int.natAbs_tmod]
      rfl
    rw [← Int.cast_abs, hmod, Int.cast_natCast]
  rw [getOffsetFromUTC, if_neg hne, hsign, Option.map_some, Option.map_some, hhours, hminutes, pad_natCast (by omega)]
  rfl

theorem getOffsetFromUTC_eq (hdvd : 60 ∣ z) (hlt : |z| < 1440) : getOffsetFromUTC (some z) = (offsetOf z).text := by
  by_cases hzero : z = 0
  · rw [hzero]
    rfl
  · obtain ⟨h, hz⟩ : ∃ h : Nat, z.natAbs = 60 * h := ⟨z.natAbs / 60, by omega⟩
    have hh : h < 24 := by
      rw [abs_lt] at hlt
      omega
    have hhours : |(z : Rat)| / 60 = h := by
      rw [abs_intCast, hz]
      push_cast
      ring
    have hdiv : z.natAbs / 60 = h := by omega
    have hmod : z.natAbs % 60 = 0 := by omega
    rw [getOffsetFromUTC_of_ne hzero, hhours, roundToDouble_natCast (by omega), pad_natCast (by omega), hmod, offsetOf,
      if_neg hzero, hdiv]
    rfl

/-- A text of fixed width that ends with the digits of a quotient is that of a whole number of hours. -/
theorem dvd_of_text_eq {offset : Offset} (hvalid : offset.IsValid) (htext : offset.text = getOffsetFromUTC (some z)) :
    60 ∣ z ∧ |z| < 1440 := by
  by_cases hzero : z = 0
  · rw [hzero]
    norm_num
  · rw [getOffsetFromUTC_of_ne hzero] at htext
    cases offset with
    | utc =>
      have hhead : unit 'Z' = unit (if decide (0 < z) then '-' else '+') := (List.cons.inj htext).1
      have hsigns : unit 'Z' ≠ unit '-' ∧ unit 'Z' ≠ unit '+' := by decide
      split at hhead
      · exact absurd hhead hsigns.1
      · exact absurd hhead hsigns.2
    | shifted isWest hours minutes =>
      obtain ⟨hhours, hminutes⟩ := hvalid
      have htail : fixed 2 hours ++ unit ':' :: fixed 2 minutes =
          pad (some (roundToDouble (|(z : Rat)| / 60))) 2 ++ unit ':' :: fixed 2 (z.natAbs % 60) := (List.cons.inj htext).2
      have hhoursLength : (fixed 2 hours).length = 2 := length_fixed (by norm_num) (by omega)
      have hminutesLength : (fixed 2 minutes).length = 2 := length_fixed (by norm_num) (by omega)
      have hminutesLength' : (fixed 2 (z.natAbs % 60)).length = 2 := length_fixed (by norm_num) (by omega)
      have hlength := congrArg List.length htail
      rw [List.length_append, List.length_cons, List.length_append, List.length_cons, hhoursLength, hminutesLength,
        hminutesLength'] at hlength
      have hpad := (List.append_inj htail (by omega)).1
      -- The quotient is written with nothing but digits, so it is a whole number.
      have hdigits : ∀ c ∈ (numeral (roundToDouble (|(z : Rat)| / 60))).toText, isDigit c = true := by
        intro c hc
        have hmem : c ∈ fixed 2 hours := by
          rw [hpad]
          exact List.mem_append_right _ hc
        exact isDigit_of_mem_fixed hmem
      obtain ⟨v, hvalue, hv⟩ := exists_value_of_digits hdigits
      have hfixed : fixed 2 hours = fixed 2 v := by
        rw [hpad, pad, stringOf, numberText, hv]
        rfl
      have heq : hours = v := by rw [← digitsValue_fixed 2 hours, hfixed, digitsValue_fixed]
      have hpos : 0 < |(z : Rat)| / 60 := by
        have hne : (z : Rat) ≠ 0 := by exact_mod_cast hzero
        positivity
      have hclose := abs_lt.mp (abs_sub_lt_of_value_numeral hpos (by omega) hvalue)
      rw [abs_intCast] at hclose
      have hlow : ((60 * v : Nat) : Rat) < ((z.natAbs + 1 : Nat) : Rat) := by
        push_cast
        linarith
      have hhigh : ((z.natAbs : Nat) : Rat) < ((60 * v + 1 : Nat) : Rat) := by
        push_cast
        linarith
      have hlow' : 60 * v < z.natAbs + 1 := by exact_mod_cast hlow
      have hhigh' : z.natAbs < 60 * v + 1 := by exact_mod_cast hhigh
      rw [abs_lt]
      omega

end Offset

/-! ### What a date string denotes -/

structure Denotes (zone : TimeZone) (t : Int) (includeMillis : Bool) : Prop where
  format : ∃ dateTime : DateTime, dateTime.IsValid ∧ dateTime.text = toLocalIsoString zone ⟨some t⟩ includeMillis
  parse : DateTime.parse (toLocalIsoString zone ⟨some t⟩ includeMillis) = some (truncated t includeMillis)

section Denotes

variable {zone : TimeZone} {t : Int} {includeMillis : Bool}

theorem length_decimal_iff {n : Nat} : (decimal n).length = 4 ↔ 1000 ≤ n ∧ n < 10 ^ 4 := by
  by_cases hge : 1000 ≤ n
  · have hlow : 3 < (Nat.digits 10 n).length := (Nat.lt_digits_length_iff (by norm_num) n).mpr hge
    have hhigh : 4 < (Nat.digits 10 n).length ↔ 10 ^ 4 ≤ n := Nat.lt_digits_length_iff (by norm_num) n
    rw [decimal, if_neg (by omega), List.length_reverse, List.length_map]
    omega
  · have hle := @length_decimal_le 3 n (by norm_num) (by omega)
    omega

theorem offset_eq_of_fraction {fraction fraction' : Option Nat} (hfraction : ∀ n ∈ fraction, n < 10 ^ 3)
    (hfraction' : ∀ n ∈ fraction', n < 10 ^ 3) {s s' : Text} (hs : ∀ c ∈ s.head?, c ≠ unit '.')
    (hs' : ∀ c ∈ s'.head?, c ≠ unit '.') (h : DateTime.fraction fraction ++ s = DateTime.fraction fraction' ++ s') :
    s = s' := by
  have hread := DateTime.readFraction_fraction hfraction hs
  rw [h, DateTime.readFraction_fraction hfraction' hs'] at hread
  exact (Prod.mk.inj (Option.some.inj hread)).2.symm

theorem head?_getOffsetFromUTC (z : Int) : ∀ c ∈ (getOffsetFromUTC (some z)).head?, c ≠ unit '.' := by
  intro c hc
  by_cases hzero : z = 0
  · rw [hzero] at hc
    cases hc
    decide
  · rw [getOffsetFromUTC_of_ne hzero] at hc
    cases hc
    split <;> decide

/-- A string in the extended format has a year of four digits, and an offset in whole hours. -/
theorem of_text_eq {dateTime : DateTime} (hyear : 0 ≤ localYear zone t) (hlt : localYear zone t < 2 ^ 53)
    (hvalid : dateTime.IsValid) (htext : dateTime.text = toLocalIsoString zone ⟨some t⟩ includeMillis) :
    (1000 ≤ localYear zone t ∧ localYear zone t < 10 ^ 4) ∧ 60 ∣ zone t ∧ |zone t| < 1440 := by
  rw [toLocalIsoString_eq zone t includeMillis hyear hlt, DateTime.text] at htext
  have hhyphen : isDigit (unit '-') = false := by decide
  have hnot : unit '-' ∉ fixed 4 dateTime.year := by
    intro hmem
    rw [isDigit_of_mem_fixed hmem] at hhyphen
    cases hhyphen
  -- The first hyphen is behind the year.
  have hindex := congrArg (Text.indexOf · (unit '-')) htext
  simp only [Text.indexOf_append_cons _ hnot, Text.indexOf_append_cons _ (not_isDigit_of_ne hhyphen),
    Option.some.injEq] at hindex
  have hrest := (List.cons.inj (List.append_inj htext hindex).2).2
  have hlocal : (dateTimeOf zone t includeMillis).middle.length = 14 :=
    length_middle_dateTimeOf zone t includeMillis
  obtain ⟨_, hoffset⟩ := List.append_inj hrest ((DateTime.length_middle_of_isValid hvalid).trans hlocal.symm)
  have hfraction : ∀ n ∈ (dateTimeOf zone t includeMillis).millisecond, n < 10 ^ 3 :=
    millisecond_dateTimeOf_lt zone t includeMillis
  have heq := offset_eq_of_fraction hvalid.millisecond hfraction (DateTime.head?_offset_text _)
    (head?_getOffsetFromUTC _) hoffset
  refine ⟨?_, dvd_of_text_eq hvalid.offset heq⟩
  rw [length_fixed (by norm_num) hvalid.year] at hindex
  have hfour := length_decimal_iff.mp hindex.symm
  omega

theorem text_dateTimeOf (hyear : 1000 ≤ localYear zone t) (hlt : localYear zone t < 10 ^ 4) (hdvd : 60 ∣ zone t)
    (hoffset : |zone t| < 1440) :
    (dateTimeOf zone t includeMillis).text = toLocalIsoString zone ⟨some t⟩ includeMillis := by
  have hlength : (decimal (localYear zone t).toNat).length = 4 := length_decimal_iff.mpr (by omega)
  have hfixed : fixed 4 (localYear zone t).toNat = decimal (localYear zone t).toNat := by
    rw [fixed_eq, hlength]
    rfl
  rw [toLocalIsoString_eq zone t includeMillis (by omega) (by omega), getOffsetFromUTC_eq hdvd hoffset, DateTime.text,
    ← hfixed]
  rfl

theorem denotes_iff_of_year (hyear : 0 ≤ localYear zone t) (hlt : localYear zone t < 2 ^ 53) :
    Denotes zone t includeMillis ↔
      (1000 ≤ localYear zone t ∧ localYear zone t < 10 ^ 4) ∧ 60 ∣ zone t ∧ |zone t| < 1440 := by
  constructor
  · intro h
    obtain ⟨dateTime, hvalid, htext⟩ := h.format
    exact of_text_eq hyear hlt hvalid htext
  · rintro ⟨⟨hfour, hyears⟩, hdvd, hoffset⟩
    have hvalid := isValid_dateTimeOf zone t includeMillis hyear hyears (isValid_offsetOf hoffset)
    have htext := @text_dateTimeOf zone t includeMillis hfour hyears hdvd hoffset
    refine ⟨⟨_, hvalid, htext⟩, ?_⟩
    rw [DateTime.parse_eq_some_iff]
    exact ⟨_, hvalid, htext, time_dateTimeOf zone t includeMillis hyear (ahead_offsetOf hdvd)⟩

end Denotes

/-- A date string denotes its instant exactly if the local year has four digits and the offset is in whole hours. -/
theorem denotes_iff_four_digits_and_whole_hours (zone : TimeZone) (t : Int) (includeMillis : Bool)
    (hyear : 0 ≤ localYear zone t ∧ localYear zone t ≤ 9999) :
    Denotes zone t includeMillis ↔ 1000 ≤ localYear zone t ∧ 60 ∣ zone t ∧ |zone t| < 1440 := by
  rw [denotes_iff_of_year hyear.1 (by omega)]
  have hlt : localYear zone t < 10 ^ 4 := by omega
  simp only [hlt, and_true]

theorem denotes_iff_four_digits_and_whole_hours_east :
    Denotes (fun _ => -120) 1600000000123 true ↔
      1000 ≤ localYear (fun _ => -120) 1600000000123 ∧ (60 : Int) ∣ -120 ∧ |(-120 : Int)| < 1440 :=
  denotes_iff_four_digits_and_whole_hours (fun _ => -120) 1600000000123 true (by decide)

/-- At an offset of five and a half hours the hours are written as `5.5`, and the year 500 has three digits. -/
theorem not_denotes_half_hour :
    (localYear (fun _ => -330) 1600000000000 = 2020 ∧ ¬Denotes (fun _ => -330) 1600000000000 false) ∧
      localYear (fun _ => 0) (-46388678400000) = 500 ∧ ¬Denotes (fun _ => 0) (-46388678400000) false := by
  have hhalf : localYear (fun _ => -330) 1600000000000 = 2020 := by decide
  have hshort : localYear (fun _ => 0) (-46388678400000) = 500 := by decide
  refine ⟨⟨hhalf, ?_⟩, hshort, ?_⟩
  · rw [denotes_iff_of_year (by rw [hhalf]; norm_num) (by rw [hhalf]; norm_num)]
    rintro ⟨_, hdvd, _⟩
    revert hdvd
    decide
  · rw [denotes_iff_of_year (by rw [hshort]; norm_num) (by rw [hshort]; norm_num), hshort]
    norm_num

end Dates

end Coaty
