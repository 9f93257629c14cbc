import Coaty.Js.Value
import Coaty.Time.Interval
import Coaty.Util.Dates

/-!
# Time intervals and their text

An interval has four formats, which its predicate tells apart by the members that are present. The text of an interval that has only a duration goes on with the missing end. A duration is written in seconds, which are rounded to a double, so that a duration of many years may come out as another one.
-/

namespace Coaty

namespace Intervals

open Js Iso8601 Dates

/-- The members of an object that is used as a time interval, where `none` is `undefined`. -/
structure TimeInterval where
  start : Option Value
  «end» : Option Value
  duration : Option Value

/-- `typeof value === "number" && value >= 0` -/
def isValidNumber : Option Value → Bool
  | some (.number value) => decide (0 ≤ value)
  | _ => false

/-- The interval is missing if it is `undefined` or `null`. -/
def isValidTimeInterval : Option TimeInterval → Bool
  | none => false
  | some interval =>
    if interval.duration.isSome then
      if !isValidNumber interval.duration then false
      else if interval.start.isNone then interval.end.isNone || isValidNumber interval.end
      else interval.end.isNone && isValidNumber interval.start
    else
      interval.start.isSome && isValidNumber interval.start && interval.end.isSome && isValidNumber interval.end

def toDurationIsoString (duration : Rat) : Except Text Text :=
  if duration < 0 then throw (text "Duration cannot be negative.")
  else return text "PT" ++ numberText (roundToDouble (duration / 1000)) ++ text "S"

/-- The number that a member is by its type. -/
def asNumber : Option Value → Option Rat
  | some (.number value) => some value
  | _ => none

def toLocalIntervalIsoString (zone : TimeZone) (interval : TimeInterval) (includeMillis : Bool) : Except Text Text := do
  if !isValidTimeInterval (some interval) then throw (text "Time interval is not valid: [object Object]")
  match asNumber interval.duration with
  | some duration =>
    let duration ← toDurationIsoString duration
    if interval.start.isSome then
      return toLocalIsoString zone (.ofValue (asNumber interval.start)) includeMillis ++ text "/" ++ duration
    else return duration ++ text "/" ++ toLocalIsoString zone (.ofValue (asNumber interval.end)) includeMillis
  | none =>
    return toLocalIsoString zone (.ofValue (asNumber interval.start)) includeMillis ++ text "/" ++
      toLocalIsoString zone (.ofValue (asNumber interval.end)) includeMillis

/-! ### Durations -/

def seconds (duration : Nat) : Rat := roundToDouble (duration / 1000)

def durationText (duration : Nat) : Text := text "PT" ++ numberText (seconds duration) ++ text "S"

/-- A duration is a multiple of ten, or none with the same seconds is, and it is the closest one to these seconds. -/
def IsExact (duration : Nat) : Prop :=
  10 ∣ duration ∨ ∀ other : Nat, other ≠ duration → seconds other = seconds duration →
    ¬10 ∣ other ∧ IsCloser (seconds duration) (-3) duration other

section Duration

variable {d : Nat}

theorem thousandth_mul (d : Nat) : (d : Rat) * 10 ^ (-3 : Int) = d / 1000 := by
  rw [zpow_neg, ← div_eq_mul_inv]
  norm_num

theorem div_thousandth (x : Rat) : x / 10 ^ (-3 : Int) = 1000 * x := by
  rw [zpow_neg, div_inv_eq_mul, mul_comm]
  norm_num

theorem seconds_zero : seconds 0 = 0 := by
  rw [seconds, Nat.cast_zero, zero_div, roundToDouble_zero]

theorem div_thousand_pos (hd : 0 < d) : (0 : Rat) < d / 1000 := by positivity

theorem abs_sub_seconds_le {k : Int} (h : seconds d < 2 ^ k) : |d - 1000 * seconds d| ≤ 500 * 2 ^ (k - 53) := by
  obtain rfl | hd := Nat.eq_zero_or_pos d
  · rw [seconds_zero, Nat.cast_zero, mul_zero, sub_zero, abs_zero]
    positivity
  · have hpos := div_thousand_pos hd
    have hlt : (d : Rat) / 1000 < 2 ^ k := by
      by_contra hge
      exact (le_roundToDouble hpos (not_lt.mp hge)).not_gt h
    have hulp := ulp_le hpos hlt
    have herror := abs_roundToDouble_sub_le ((d : Rat) / 1000)
    have hscale : |d - 1000 * seconds d| = 1000 * |roundToDouble ((d : Rat) / 1000) - d / 1000| := by
      have hthousand : |(1000 : Rat)| = 1000 := abs_of_pos (by norm_num)
      rw [← hthousand, ← abs_mul, abs_sub_comm, seconds, hthousand]
      congr 1
      ring
    rw [hscale]
    linarith

theorem seconds_lt {k : Int} (h : (d + 1 : Rat) ≤ 1000 * 2 ^ k) (hk : k ≤ 44) : seconds d < 2 ^ k := by
  obtain rfl | hd := Nat.eq_zero_or_pos d
  · rw [seconds_zero]
    positivity
  · have hpos := div_thousand_pos hd
    have hulp : ulp ((d : Rat) / 1000) ≤ 2 ^ (k - 53) := by
      apply ulp_le hpos
      rw [div_lt_iff₀ (by norm_num)]
      linarith
    have hpow : (2 : Rat) ^ (k - 53) ≤ 2 ^ (-9 : Int) := zpow_le_zpow_right₀ (by norm_num) (by omega)
    have herror := (abs_le.mp (abs_roundToDouble_sub_le ((d : Rat) / 1000))).2
    norm_num at hpow
    rw [seconds]
    linarith

theorem abs_sub_lt_one {t : Nat} (hd : d < 2 ^ 53) (h : seconds t = seconds d) :
    |t - seconds d / 10 ^ (-3 : Int)| < 1 := by
  have hd' : (d : Rat) < 2 ^ 53 := by exact_mod_cast hd
  have hlt : seconds d < 2 ^ (44 : Int) := seconds_lt (by norm_num; linarith) le_rfl
  rw [← h] at hlt ⊢
  have hclose := abs_sub_seconds_le hlt
  rw [div_thousandth]
  norm_num at hclose
  linarith

/-- Up to 278000 years no two durations have the same seconds. -/
theorem isExact_of_lt (hd : d < 8796093022208000) : IsExact d := by
  refine .inr fun t hne ht => absurd ?_ hne
  have hd' : (d + 1 : Rat) ≤ 8796093022208000 := by exact_mod_cast hd
  have hlt : seconds d < 2 ^ (43 : Int) := seconds_lt (by norm_num; linarith) (by norm_num)
  have hself := abs_sub_seconds_le hlt
  have hother := @abs_sub_seconds_le t 43 (by rw [ht]; exact hlt)
  rw [ht] at hother
  norm_num [abs_le] at hself hother
  have hlow : (d : Rat) < t + 1 := by linarith
  have hhigh : (t : Rat) < d + 1 := by linarith
  have hlow' : d < t + 1 := by exact_mod_cast hlow
  have hhigh' : t < d + 1 := by exact_mod_cast hhigh
  omega

theorem readDecimal_numberText (hd : d < 2 ^ 53) :
    ∃ q, readDecimal (numberText (seconds d)) = some q ∧ (q * 1000 = d ↔ IsExact d) := by
  obtain rfl | hpos := Nat.eq_zero_or_pos d
  · rw [seconds_zero]
    refine ⟨0, rfl, ?_⟩
    rw [Nat.cast_zero, zero_mul]
    exact iff_of_true rfl (.inl (dvd_zero 10))
  · have hd' : (d : Rat) < 2 ^ 53 := by exact_mod_cast hd
    have hone : (1 : Rat) ≤ d := by exact_mod_cast hpos
    have hround : ∀ t : Nat, roundToDouble (t * 10 ^ (-3 : Int)) = seconds t := fun t => by rw [thousandth_mul, seconds]
    have hlow : 2 ^ (-10 : Int) ≤ seconds d := by
      apply le_roundToDouble (div_thousand_pos hpos)
      norm_num
      linarith
    have hlt : seconds d < 2 ^ (44 : Int) := seconds_lt (by norm_num; linarith) le_rfl
    have hsecondsPos : 0 < seconds d := lt_of_lt_of_le (by positivity) hlow
    have hgrid : ∀ t : Nat, roundToDouble (t * 10 ^ (-3 : Int)) = seconds d → |t - seconds d / 10 ^ (-3 : Int)| < 1 := by
      intro t ht
      rw [hround] at ht
      exact abs_sub_lt_one hd ht
    have hstart : (10 : Rat) ^ ((-3 : Int) - 1) ≤ seconds d := by
      norm_num at hlow ⊢
      linarith
    have hfuel : seconds d < 10 ^ ((-3 : Int) + 17) := by
      norm_num at hlt ⊢
      linarith
    have hiff := value_numeral_eq_iff hsecondsPos (hround d) hgrid hstart hfuel
    obtain ⟨u, hvalue, hu, _⟩ := exists_value_numeral hsecondsPos (hround d) hgrid hstart hfuel
    have hunits := (abs_lt.mp (hgrid u hu)).2
    rw [div_thousandth] at hunits
    have hu₀ : u ≠ 0 := by
      rintro rfl
      rw [hround, seconds_zero] at hu
      exact hsecondsPos.ne hu
    have hu₁ : (1 : Rat) ≤ u := by exact_mod_cast Nat.one_le_iff_ne_zero.mpr hu₀
    refine ⟨(numeral (seconds d)).value, readDecimal_toText ?_ ?_, ?_⟩
    · rw [hvalue, thousandth_mul]
      norm_num
      linarith
    · rw [hvalue, thousandth_mul]
      norm_num at hlt ⊢
      linarith
    · simp only [hround] at hiff
      rw [thousandth_mul, eq_div_iff (by norm_num)] at hiff
      exact hiff

theorem readDuration_durationText_eq_iff (hd : d < 2 ^ 53) :
    readDuration (durationText d) = some (d : Rat) ↔ IsExact d := by
  obtain ⟨q, hread, hq⟩ := readDecimal_numberText hd
  rw [durationText, readDuration_append, hread, Option.map_some, Option.some.injEq]
  exact hq

theorem exists_readDuration (hd : d < 2 ^ 53) : ∃ q, readDuration (durationText d) = some q := by
  obtain ⟨q, hread, _⟩ := readDecimal_numberText hd
  rw [durationText, readDuration_append, hread]
  exact ⟨q * 1000, rfl⟩

theorem slash_notMem_durationText (hd : d < 2 ^ 53) : unit '/' ∉ durationText d := by
  obtain ⟨q, hread, _⟩ := readDecimal_numberText hd
  have hnot : unit '/' ∉ numberText (seconds d) := by
    intro hmem
    obtain hdigit | hpoint := mem_of_readDecimal hread hmem
    · revert hdigit
      decide
    · revert hpoint
      decide
  have hstart : unit '/' ∉ text "PT" := by decide
  have hend : unit '/' ∉ text "S" := by decide
  rw [durationText, List.mem_append, List.mem_append]
  rintro ((h | h) | h)
  · exact hstart h
  · exact hnot h
  · exact hend h

end Duration

/-! ### Dates -/

def dateText (zone : TimeZone) (t : Option Int) : Text := toLocalIsoString zone ⟨t⟩ true

def HasWholeHours (zone : TimeZone) : Prop := ∀ t, 60 ∣ zone t ∧ |zone t| < 1440

/-- An instant from 1970 on that a date can hold. -/
def IsTimestamp (t : Int) : Prop := 0 ≤ t ∧ t ≤ 8640000000000000

instance (t : Int) : Decidable (IsTimestamp t) := inferInstanceAs (Decidable (_ ∧ _))

section Timestamp

variable {zone : TimeZone} {t : Int} (hzone : HasWholeHours zone) (ht : IsTimestamp t)

include hzone ht

theorem localYear_bounds : 1000 ≤ localYear zone t ∧ localYear zone t < 2 ^ 53 := by
  have hoffset := abs_lt.mp (hzone t).2
  have hday := Calendar.dayFromYear_yearFromDay (localTime zone t / 86400000)
  rw [Calendar.dayFromYear, Calendar.dayFromYear] at hday
  rw [IsTimestamp] at ht
  rw [localYear]
  rw [localTime] at hday ⊢
  omega

theorem dateText_eq : dateText zone (some t) = decimal (localYear zone t).toNat ++ unit '-' ::
    ((dateTimeOf zone t true).middle ++
      (DateTime.fraction (dateTimeOf zone t true).millisecond ++ (offsetOf (zone t)).text)) := by
  have hyear := localYear_bounds hzone ht
  rw [dateText, toLocalIsoString_eq zone t true (by omega) hyear.2, getOffsetFromUTC_eq (hzone t).1 (hzone t).2]

theorem parse_dateText_eq_iff : DateTime.parse (dateText zone (some t)) = some t ↔ localYear zone t ≤ 9999 := by
  have hyear := localYear_bounds hzone ht
  have hdenotes := @denotes_iff_of_year zone t true (by omega) hyear.2
  constructor
  · intro hparse
    obtain ⟨dateTime, hvalid, htext, _⟩ := DateTime.parse_eq_some_iff.mp hparse
    have hyears := (hdenotes.mp ⟨⟨dateTime, hvalid, htext⟩, hparse⟩).1.2
    omega
  · intro hle
    exact (hdenotes.mpr ⟨⟨hyear.1, by omega⟩, hzone t⟩).parse

theorem head?_dateText : ∃ c, (dateText zone (some t)).head? = some c ∧ isDigit c = true := by
  rw [dateText_eq hzone ht]
  obtain ⟨c, rest, hcons⟩ := List.exists_cons_of_ne_nil (decimal_ne_nil (localYear zone t).toNat)
  rw [hcons]
  have hmem : c ∈ decimal (localYear zone t).toNat := by
    rw [hcons]
    exact List.mem_cons_self
  exact ⟨c, rfl, isDigit_of_mem_decimal hmem⟩

theorem readDuration_dateText : readDuration (dateText zone (some t)) = none := by
  obtain ⟨c, hhead, hdigit⟩ := head?_dateText hzone ht
  apply readDuration_of_head?
  rw [hhead]
  intro hc
  rw [Option.some.inj hc] at hdigit
  revert hdigit
  decide

theorem slash_notMem_dateText : unit '/' ∉ dateText zone (some t) := by
  have hdigit : isDigit (unit '/') = false := by decide
  have hhyphen : unit '/' ≠ unit '-' := by decide
  rw [dateText_eq hzone ht, List.mem_append, List.mem_cons, List.mem_append, List.mem_append]
  rintro (h | h | h | h | h)
  · exact not_isDigit_of_ne hdigit h
  · exact hhyphen h
  · exact DateTime.slash_notMem_middle _ h
  · exact DateTime.slash_notMem_fraction _ h
  · exact Offset.slash_notMem_text _ h

end Timestamp

/-! ### The formats of an interval -/

def members : Interval → TimeInterval
  | .startEnd start finish => ⟨some (.number start), some (.number finish), none⟩
  | .startDuration start duration => ⟨some (.number start), none, some (.number duration)⟩
  | .durationEnd duration finish => ⟨none, some (.number finish), some (.number duration)⟩
  | .durationOnly duration => ⟨none, none, some (.number duration)⟩

def format (interval : TimeInterval) : Bool × Bool × Bool :=
  (interval.start.isSome, interval.end.isSome, interval.duration.isSome)

/-- An interval that the predicate accepts, with whole numbers of milliseconds, instants that a date can hold and a duration of 53 bits. -/
structure IsAccepted (interval : TimeInterval) : Prop where
  valid : isValidTimeInterval (some interval) = true
  integer : ∀ value, interval.start = some value ∨ interval.end = some value ∨ interval.duration = some value →
    ∃ n : Int, value = .number n
  timestamp : ∀ t : Int, interval.start = some (.number t) ∨ interval.end = some (.number t) → t ≤ 8640000000000000
  duration : ∀ d : Int, interval.duration = some (.number d) → d < 2 ^ 53

theorem members_injective : Function.Injective members := by
  intro interval other h
  cases interval <;> cases other <;> simp_all [members]

theorem isValidNumber_intCast {n : Int} : isValidNumber (some (.number n)) = true ↔ 0 ≤ n := by
  rw [isValidNumber, decide_eq_true_iff, Int.cast_nonneg_iff]

theorem isValidNumber_natCast (d : Nat) : isValidNumber (some (.number d)) = true := decide_eq_true (Nat.cast_nonneg d)

theorem isValidTimeInterval_startDuration {s : Int} (hs : 0 ≤ s) (d : Nat) :
    isValidTimeInterval (some (members (.startDuration s d))) = true := by
  simp only [isValidTimeInterval, members, isValidNumber_intCast.mpr hs, isValidNumber_natCast]
  rfl

theorem isValidTimeInterval_durationOnly (d : Nat) :
    isValidTimeInterval (some (members (.durationOnly d))) = true := by
  simp only [isValidTimeInterval, members, isValidNumber_natCast]
  rfl

theorem exists_integer {member : Option Value} (hvalid : isValidNumber member = true)
    (hinteger : ∀ value, member = some value → ∃ n : Int, value = .number n) :
    ∃ n : Int, member = some (.number n) ∧ 0 ≤ n := by
  cases member with
  | none => cases hvalid
  | some value =>
    obtain ⟨n, rfl⟩ := hinteger value rfl
    exact ⟨n, rfl, isValidNumber_intCast.mp hvalid⟩

namespace IsAccepted

variable {interval : TimeInterval}

theorem exists_start (h : IsAccepted interval) (hvalid : isValidNumber interval.start = true) :
    ∃ t : Int, interval.start = some (.number t) ∧ IsTimestamp t := by
  obtain ⟨t, ht, hnonneg⟩ := exists_integer hvalid fun value hvalue => h.integer value (.inl hvalue)
  exact ⟨t, ht, hnonneg, h.timestamp t (.inl ht)⟩

theorem exists_end (h : IsAccepted interval) (hvalid : isValidNumber interval.end = true) :
    ∃ t : Int, interval.end = some (.number t) ∧ IsTimestamp t := by
  obtain ⟨t, ht, hnonneg⟩ := exists_integer hvalid fun value hvalue => h.integer value (.inr (.inl hvalue))
  exact ⟨t, ht, hnonneg, h.timestamp t (.inr ht)⟩

theorem exists_duration (h : IsAccepted interval) (hvalid : isValidNumber interval.duration = true) :
    ∃ d : Nat, interval.duration = some (.number d) ∧ d < 2 ^ 53 := by
  obtain ⟨n, hn, hnonneg⟩ := exists_integer hvalid fun value hvalue => h.integer value (.inr (.inr hvalue))
  obtain ⟨d, rfl⟩ := Int.eq_ofNat_of_zero_le hnonneg
  have hlt := h.duration d hn
  refine ⟨d, ?_, by exact_mod_cast hlt⟩
  rw [hn, Int.cast_natCast]

/-- An accepted interval has one of the four formats. -/
theorem cases (h : IsAccepted interval) :
    (∃ s e : Int, (IsTimestamp s ∧ IsTimestamp e) ∧ interval = members (.startEnd s e)) ∨
    (∃ (s : Int) (d : Nat), (IsTimestamp s ∧ d < 2 ^ 53) ∧ interval = members (.startDuration s d)) ∨
    (∃ (d : Nat) (e : Int), (d < 2 ^ 53 ∧ IsTimestamp e) ∧ interval = members (.durationEnd d e)) ∨
    ∃ d : Nat, d < 2 ^ 53 ∧ interval = members (.durationOnly d) := by
  obtain ⟨start, finish, duration⟩ := interval
  have hvalid := h.valid
  cases duration with
  | none =>
    simp only [isValidTimeInterval, Option.isSome_none, Bool.false_eq_true, if_false, Bool.and_eq_true] at hvalid
    obtain ⟨⟨⟨_, hstart⟩, _⟩, hend⟩ := hvalid
    obtain ⟨s, hs, hsTimestamp⟩ := h.exists_start hstart
    obtain ⟨e, he, heTimestamp⟩ := h.exists_end hend
    obtain rfl : start = _ := hs
    obtain rfl : finish = _ := he
    exact .inl ⟨s, e, ⟨hsTimestamp, heTimestamp⟩, rfl⟩
  | some value =>
    simp only [isValidTimeInterval, Option.isSome_some, if_true] at hvalid
    split at hvalid
    · cases hvalid
    · rename_i hnumber
      rw [Bool.not_eq_true, Bool.not_eq_false'] at hnumber
      obtain ⟨d, hd, hlt⟩ := h.exists_duration hnumber
      obtain rfl : value = _ := Option.some.inj hd
      cases start with
      | none =>
        cases finish with
        | none => exact .inr (.inr (.inr ⟨d, hlt, rfl⟩))
        | some finish =>
          obtain ⟨e, he, heTimestamp⟩ := h.exists_end hvalid
          obtain rfl : finish = _ := Option.some.inj he
          exact .inr (.inr (.inl ⟨d, e, ⟨hlt, heTimestamp⟩, rfl⟩))
      | some start =>
        cases finish with
        | none =>
          obtain ⟨s, hs, hsTimestamp⟩ := h.exists_start hvalid
          obtain rfl : start = _ := Option.some.inj hs
          exact .inr (.inl ⟨s, d, ⟨hsTimestamp, hlt⟩, rfl⟩)
        | some finish => cases hvalid

end IsAccepted

theorem lt_of_number_natCast {d : Nat} {n : Int} (hd : d < 2 ^ 53) (h : some (Value.number d) = some (.number n)) :
    n < 2 ^ 53 := by
  rw [Option.some.injEq, Value.number.injEq] at h
  have hn : (d : Int) = n := by exact_mod_cast h
  omega

theorem isAccepted_startDuration (s : Int) (d : Nat) (hs : IsTimestamp s) (hd : d < 2 ^ 53) :
    IsAccepted (members (.startDuration s d)) := by
  refine ⟨isValidTimeInterval_startDuration hs.1 d, ?_, ?_, fun n hn => lt_of_number_natCast hd hn⟩
  · rintro value (hvalue | hvalue | hvalue)
    · exact ⟨s, (Option.some.inj hvalue).symm⟩
    · cases hvalue
    · exact ⟨d, (Option.some.inj hvalue).symm.trans (by rw [Int.cast_natCast])⟩
  · rintro t (ht | ht)
    · have hs' := hs.2
      rw [members, Option.some.injEq, Value.number.injEq, Int.cast_inj] at ht
      omega
    · cases ht

theorem isAccepted_durationOnly (d : Nat) (hd : d < 2 ^ 53) : IsAccepted (members (.durationOnly d)) := by
  refine ⟨isValidTimeInterval_durationOnly d, ?_, ?_, fun n hn => lt_of_number_natCast hd hn⟩
  · rintro value (hvalue | hvalue | hvalue)
    · cases hvalue
    · cases hvalue
    · exact ⟨d, (Option.some.inj hvalue).symm.trans (by rw [Int.cast_natCast])⟩
  · rintro t (ht | ht)
    · cases ht
    · cases ht

/-! ### The text of each format -/

/-- The text of an interval is read back, with exactly its members. -/
def DenotesInterval (zone : TimeZone) (interval : TimeInterval) : Prop :=
  ∃ s, toLocalIntervalIsoString zone interval true = .ok s ∧
    ∃ parsed, Interval.parse s = some parsed ∧ members parsed = interval

section Text

variable {zone : TimeZone} {s e : Int} {d : Nat}

theorem ofValue_intCast {t : Int} (ht : IsTimestamp t) : Date.ofValue (some (t : Rat)) = ⟨some t⟩ := by
  have hle : |(t : Rat)| ≤ 8640000000000000 := by
    rw [abs_of_nonneg (by exact_mod_cast ht.1)]
    exact_mod_cast ht.2
  rw [Date.ofValue, Option.bind_some, if_pos hle, Rat.num_intCast, Rat.den_intCast, Nat.cast_one, Int.tdiv_one]

theorem toDurationIsoString_natCast (d : Nat) : toDurationIsoString d = .ok (durationText d) :=
  if_neg (Nat.cast_nonneg d).not_gt

theorem text_startEnd (hs : IsTimestamp s) (he : IsTimestamp e) :
    toLocalIntervalIsoString zone (members (.startEnd s e)) true =
      .ok (dateText zone (some s) ++ unit '/' :: dateText zone (some e)) := by
  have hvalid : isValidTimeInterval (some (members (.startEnd s e))) = true := by
    simp only [isValidTimeInterval, members, isValidNumber_intCast.mpr hs.1, isValidNumber_intCast.mpr he.1]
    rfl
  rw [toLocalIntervalIsoString, hvalid]
  simp only [members, asNumber, ofValue_intCast hs, ofValue_intCast he, List.append_assoc]
  rfl

theorem text_startDuration (hs : IsTimestamp s) (d : Nat) :
    toLocalIntervalIsoString zone (members (.startDuration s d)) true =
      .ok (dateText zone (some s) ++ unit '/' :: durationText d) := by
  rw [toLocalIntervalIsoString, isValidTimeInterval_startDuration hs.1 d]
  simp only [members, asNumber, ofValue_intCast hs, toDurationIsoString_natCast, List.append_assoc]
  rfl

theorem text_durationEnd (d : Nat) (he : IsTimestamp e) :
    toLocalIntervalIsoString zone (members (.durationEnd d e)) true =
      .ok (durationText d ++ unit '/' :: dateText zone (some e)) := by
  have hvalid : isValidTimeInterval (some (members (.durationEnd d e))) = true := by
    simp only [isValidTimeInterval, members, isValidNumber_intCast.mpr he.1, isValidNumber_natCast]
    rfl
  rw [toLocalIntervalIsoString, hvalid]
  simp only [members, asNumber, ofValue_intCast he, toDurationIsoString_natCast, List.append_assoc]
  rfl

theorem text_durationOnly (d : Nat) :
    toLocalIntervalIsoString zone (members (.durationOnly d)) true =
      .ok (durationText d ++ unit '/' :: dateText zone none) := by
  rw [toLocalIntervalIsoString, isValidTimeInterval_durationOnly d]
  simp only [members, asNumber, toDurationIsoString_natCast, List.append_assoc]
  rfl

theorem denotesInterval_iff {interval : Interval} {before after : Text}
    (htext : toLocalIntervalIsoString zone (members interval) true = .ok (before ++ unit '/' :: after))
    (hslash : unit '/' ∉ before) :
    DenotesInterval zone (members interval) ↔ Interval.parseParts before after = some interval := by
  rw [← Interval.parse_append hslash]
  constructor
  · rintro ⟨s, hs, parsed, hparse, hmembers⟩
    obtain rfl : s = _ := Except.ok.inj (hs.symm.trans htext)
    rw [hparse, members_injective hmembers]
  · intro hparse
    exact ⟨_, htext, interval, hparse, rfl⟩

theorem not_denotes_durationOnly (hd : d < 2 ^ 53) : ¬DenotesInterval zone (members (.durationOnly d)) := by
  obtain ⟨q, hread⟩ := exists_readDuration hd
  have hnone : DateTime.parse (dateText zone none) = none := rfl
  rw [denotesInterval_iff (text_durationOnly d) (slash_notMem_durationText hd), Interval.parseParts_of_duration hread,
    hnone]
  rintro ⟨⟩

variable (hzone : HasWholeHours zone)

include hzone

theorem denotes_startEnd_iff (hs : IsTimestamp s) (he : IsTimestamp e) :
    DenotesInterval zone (members (.startEnd s e)) ↔ localYear zone s ≤ 9999 ∧ localYear zone e ≤ 9999 := by
  rw [denotesInterval_iff (text_startEnd hs he) (slash_notMem_dateText hzone hs),
    Interval.parseParts_of_not_duration (readDuration_dateText hzone hs), readDuration_dateText hzone he,
    ← parse_dateText_eq_iff hzone hs, ← parse_dateText_eq_iff hzone he]
  simp only [Option.bind_eq_some_iff, Option.map_eq_some_iff, Interval.startEnd.injEq]
  constructor
  · rintro ⟨start, hstart, finish, hfinish, rfl, rfl⟩
    exact ⟨hstart, hfinish⟩
  · rintro ⟨hstart, hfinish⟩
    exact ⟨s, hstart, e, hfinish, rfl, rfl⟩

theorem denotes_startDuration_iff (hs : IsTimestamp s) (hd : d < 2 ^ 53) :
    DenotesInterval zone (members (.startDuration s d)) ↔ localYear zone s ≤ 9999 ∧ IsExact d := by
  obtain ⟨q, hread⟩ := exists_readDuration hd
  rw [denotesInterval_iff (text_startDuration hs d) (slash_notMem_dateText hzone hs),
    Interval.parseParts_of_not_duration (readDuration_dateText hzone hs), ← parse_dateText_eq_iff hzone hs,
    ← readDuration_durationText_eq_iff hd, hread]
  simp only [Option.bind_eq_some_iff, Option.some.injEq, Interval.startDuration.injEq]
  constructor
  · rintro ⟨start, hstart, rfl, rfl⟩
    exact ⟨hstart, rfl⟩
  · rintro ⟨hstart, rfl⟩
    exact ⟨s, hstart, rfl, rfl⟩

theorem denotes_durationEnd_iff (hd : d < 2 ^ 53) (he : IsTimestamp e) :
    DenotesInterval zone (members (.durationEnd d e)) ↔ localYear zone e ≤ 9999 ∧ IsExact d := by
  obtain ⟨q, hread⟩ := exists_readDuration hd
  rw [denotesInterval_iff (text_durationEnd d he) (slash_notMem_durationText hd), Interval.parseParts_of_duration hread,
    ← parse_dateText_eq_iff hzone he, ← readDuration_durationText_eq_iff hd, hread]
  simp only [Option.map_eq_some_iff, Option.some.injEq, Interval.durationEnd.injEq]
  constructor
  · rintro ⟨finish, hfinish, rfl, rfl⟩
    exact ⟨hfinish, rfl⟩
  · rintro ⟨hfinish, rfl⟩
    exact ⟨e, hfinish, rfl, rfl⟩

end Text

/-! ### The format of a text -/

def startsWithDigit (s : Text) : Bool := s.head?.any isDigit

def startsWithP (s : Text) : Bool := decide (s.head? = some (unit 'P'))

/-- The members that can be told from the first characters of the two parts. -/
def formatOfText (s : Text) : Bool × Bool × Bool :=
  let i := (s.indexOf (unit '/')).getD s.length
  let before := s.take i
  let after := s.drop (i + 1)
  (startsWithDigit before, startsWithDigit after, startsWithP before || startsWithP after)

section Format

variable {zone : TimeZone} {interval : TimeInterval} {before after : Text}

theorem formatOfText_append (hslash : unit '/' ∉ before) : formatOfText (before ++ unit '/' :: after) =
    (startsWithDigit before, startsWithDigit after, startsWithP before || startsWithP after) := by
  have hdrop : (before ++ unit '/' :: after).drop (before.length + 1) = after := by
    rw [List.drop_append]
    simp
  rw [formatOfText, Text.indexOf_append_cons _ hslash]
  simp only [Option.getD_some, List.take_left, hdrop]

theorem starts_dateText (hzone : HasWholeHours zone) {t : Int} (ht : IsTimestamp t) :
    startsWithDigit (dateText zone (some t)) = true ∧ startsWithP (dateText zone (some t)) = false := by
  obtain ⟨c, hhead, hdigit⟩ := head?_dateText hzone ht
  rw [startsWithDigit, startsWithP, hhead]
  refine ⟨hdigit, decide_eq_false fun hc => ?_⟩
  rw [Option.some.inj hc] at hdigit
  revert hdigit
  decide

theorem exists_text (hzone : HasWholeHours zone) (h : IsAccepted interval) :
    ∃ s, toLocalIntervalIsoString zone interval true = .ok s ∧ format interval = formatOfText s := by
  obtain ⟨start, finish, ⟨hs, he⟩, rfl⟩ | ⟨start, d, ⟨hs, hd⟩, rfl⟩ | ⟨d, finish, ⟨hd, he⟩, rfl⟩ | ⟨d, hd, rfl⟩ := h.cases
  · refine ⟨_, text_startEnd hs he, ?_⟩
    rw [formatOfText_append (slash_notMem_dateText hzone hs), (starts_dateText hzone hs).1, (starts_dateText hzone hs).2,
      (starts_dateText hzone he).1, (starts_dateText hzone he).2]
    rfl
  · refine ⟨_, text_startDuration hs d, ?_⟩
    rw [formatOfText_append (slash_notMem_dateText hzone hs), (starts_dateText hzone hs).1, (starts_dateText hzone hs).2]
    rfl
  · refine ⟨_, text_durationEnd d he, ?_⟩
    rw [formatOfText_append (slash_notMem_durationText hd), (starts_dateText hzone he).1]
    rfl
  · refine ⟨_, text_durationOnly d, ?_⟩
    rw [formatOfText_append (slash_notMem_durationText hd)]
    rfl

theorem denotesInterval_iff_of_isAccepted (hzone : HasWholeHours zone) (h : IsAccepted interval) :
    DenotesInterval zone interval ↔
      (interval.start ≠ none ∨ interval.end ≠ none) ∧
        (∀ t : Int, interval.start = some (.number t) ∨ interval.end = some (.number t) → localYear zone t ≤ 9999) ∧
        ∀ d : Nat, interval.duration = some (.number d) → IsExact d := by
  have hint : ∀ n m : Int, some (Value.number n) = some (.number m) ↔ n = m := fun n m => by
    rw [Option.some.injEq, Value.number.injEq, Int.cast_inj]
  have hnat : ∀ n m : Nat, some (Value.number n) = some (.number m) ↔ n = m := fun n m => by
    rw [Option.some.injEq, Value.number.injEq, Nat.cast_inj]
  obtain ⟨start, finish, ⟨hs, he⟩, rfl⟩ | ⟨start, d, ⟨hs, hd⟩, rfl⟩ | ⟨d, finish, ⟨hd, he⟩, rfl⟩ | ⟨d, hd, rfl⟩ := h.cases
  · rw [denotes_startEnd_iff hzone hs he]
    simp [members, hint, or_imp, forall_and]
  · rw [denotes_startDuration_iff hzone hs hd]
    simp [members, hint, hnat]
  · rw [denotes_durationEnd_iff hzone hd he]
    simp [members, hint, hnat]
  · have hmissing : (members (.durationOnly d)).start = none ∧ (members (.durationOnly d)).end = none := ⟨rfl, rfl⟩
    exact iff_of_false (not_denotes_durationOnly hd) fun hpresent =>
      hpresent.1.elim (fun hstart => hstart hmissing.1) fun hend => hend hmissing.2

theorem text_ne_of_format_ne {other : TimeInterval} (hzone : HasWholeHours zone) (h : IsAccepted interval)
    (hother : IsAccepted other) (hne : format other ≠ format interval) :
    toLocalIntervalIsoString zone other true ≠ toLocalIntervalIsoString zone interval true := by
  intro heq
  obtain ⟨s, hs, hformat⟩ := exists_text hzone h
  obtain ⟨s', hs', hformat'⟩ := exists_text hzone hother
  rw [hs, hs', Except.ok.injEq] at heq
  rw [hformat, hformat', heq] at hne
  exact hne rfl

end Format

/-- The text of an accepted interval denotes it exactly if it has a timestamp, the local years have four digits and the duration is exact in seconds. Intervals in different formats never have the same text. -/
theorem denotesInterval_iff_timestamp_and_exact (zone : TimeZone) (hzone : HasWholeHours zone) (interval : TimeInterval)
    (h : IsAccepted interval) :
    (DenotesInterval zone interval ↔
      (interval.start ≠ none ∨ interval.end ≠ none) ∧
        (∀ t : Int, interval.start = some (.number t) ∨ interval.end = some (.number t) → localYear zone t ≤ 9999) ∧
        ∀ d : Nat, interval.duration = some (.number d) → IsExact d) ∧
      ∀ other, IsAccepted other → format other ≠ format interval →
        toLocalIntervalIsoString zone other true ≠ toLocalIntervalIsoString zone interval true :=
  ⟨denotesInterval_iff_of_isAccepted hzone h, fun _ hother hne => text_ne_of_format_ne hzone h hother hne⟩

theorem denotesInterval_iff_timestamp_and_exact_meeting :
    (DenotesInterval (fun _ => -120) ⟨some (.number 0), none, some (.number 1600123)⟩ ↔
      ((some (Value.number 0)) ≠ none ∨ (none : Option Value) ≠ none) ∧
        (∀ t : Int, some (Value.number 0) = some (.number t) ∨ none = some (Value.number t) →
          localYear (fun _ => -120) t ≤ 9999) ∧
        ∀ d : Nat, some (Value.number 1600123) = some (.number d) → IsExact d) ∧
      ∀ other, IsAccepted other → format other ≠ (true, false, true) →
        toLocalIntervalIsoString (fun _ => -120) other true ≠
          toLocalIntervalIsoString (fun _ => -120) ⟨some (.number 0), none, some (.number 1600123)⟩ true :=
  denotesInterval_iff_timestamp_and_exact (fun _ => -120) (fun _ => by norm_num)
    ⟨some (.number 0), none, some (.number 1600123)⟩ (isAccepted_startDuration 0 1600123 (by decide) (by norm_num))

/-- The text of a duration without timestamps ends with a date that is not valid, and `9007199254740991` ms are written as `PT9007199254740.99S`. -/
theorem not_denotesInterval_duration :
    (IsAccepted ⟨none, none, some (.number 5)⟩ ∧ ¬DenotesInterval (fun _ => 0) ⟨none, none, some (.number 5)⟩) ∧
      IsAccepted (members (.startDuration 0 (9007199254740991 : Nat))) ∧
      ¬DenotesInterval (fun _ => 0) (members (.startDuration 0 (9007199254740991 : Nat))) := by
  have hsame : seconds 9007199254740990 = seconds 9007199254740991 := by decide +kernel
  have hinexact : ¬IsExact 9007199254740991 := by
    rintro (hdvd | hcloser)
    · revert hdvd
      decide
    · exact (hcloser 9007199254740990 (by decide) hsame).1 (by decide)
  have hzone : HasWholeHours fun _ => 0 := fun _ => by norm_num
  have hzero : IsTimestamp 0 := by decide
  refine ⟨⟨isAccepted_durationOnly 5 (by norm_num), @not_denotes_durationOnly _ 5 (by norm_num)⟩,
    isAccepted_startDuration 0 9007199254740991 hzero (by norm_num), ?_⟩
  rw [denotes_startDuration_iff hzone hzero (by norm_num)]
  exact fun h => hinexact h.2

end Intervals

end Coaty
