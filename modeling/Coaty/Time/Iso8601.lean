import Coaty.Js.JsonText
import Coaty.Time.Calendar

/-!
# Dates and times in the extended format

A date and a time of day with an offset from UTC, as the format `YYYY-MM-DDTHH:mm:ss.sssZ` has it. The milliseconds may be left out, and the offset is `Z` or a sign with hours and minutes. Reading and writing are inverse to each other.
-/

namespace Iso8601

open Js Calendar

/-! ### Fields of a fixed width -/

/-- The decimal digits with zeros in front. -/
def fixed (width n : Nat) : Text := (decimal n).leftpad width (unit '0')

def readDigits (width : Nat) (s : Text) : Option (Nat × Text) :=
  if width ≤ s.length ∧ (s.take width).all isDigit = true then some (digitsValue (s.take width), s.drop width) else none

def readUnit (c : Char) : Text → Option Text
  | [] => none
  | d :: s => if d = unit c then some s else none

/-- Digits with a separator behind them. -/
def readField (width : Nat) (separator : Char) (s : Text) : Option (Nat × Text) := do
  let (n, s) ← readDigits width s
  let s ← readUnit separator s
  return (n, s)

section Fixed

variable {width n : Nat} {s rest : Text}

theorem length_decimal_le (hwidth : 0 < width) (hn : n < 10 ^ width) : (decimal n).length ≤ width := by
  rw [decimal]
  split
  · exact hwidth
  · rw [List.length_reverse, List.length_map]
    exact (Nat.digits_length_le_iff (by norm_num) n).mpr hn

theorem fixed_eq (width n : Nat) : fixed width n = zeros (width - (decimal n).length) ++ decimal n := rfl

theorem length_fixed (hwidth : 0 < width) (hn : n < 10 ^ width) : (fixed width n).length = width := by
  have hle := length_decimal_le hwidth hn
  rw [fixed_eq, List.length_append, zeros, List.length_replicate]
  omega

theorem isDigit_of_mem_fixed {c : UInt16} (hc : c ∈ fixed width n) : isDigit c = true := by
  rw [fixed_eq] at hc
  exact isDigit_of_mem_append (fun c => isDigit_of_mem_zeros) (fun c => isDigit_of_mem_decimal) c hc

theorem digitsValue_fixed (width n : Nat) : digitsValue (fixed width n) = n := by
  rw [fixed_eq, digitsValue_append, digitsValue_zeros, digitsValue_decimal, Nat.zero_mul, Nat.zero_add]

theorem digitsValue_lt (hs : ∀ c ∈ s, isDigit c = true) : digitsValue s < 10 ^ s.length := by
  have hlt : ∀ d ∈ s.reverse.map digitValue, d < 10 := by
    intro d hd
    obtain ⟨c, hc, rfl⟩ := List.mem_map.mp hd
    exact digitValue_lt (hs c (List.mem_reverse.mp hc))
  have hbound := Nat.ofDigits_lt_base_pow_length (by norm_num) hlt
  rwa [List.length_map, List.length_reverse] at hbound

theorem fixed_digitsValue (hs : ∀ c ∈ s, isDigit c = true) (hne : 0 < s.length) :
    fixed s.length (digitsValue s) = s := by
  have hunits : ∀ t : Text, (∀ c ∈ t, isDigit c = true) → (t.reverse.map digitValue).map digitUnit = t.reverse := by
    intro t ht
    rw [List.map_map]
    have hid : ∀ c ∈ t.reverse, (digitUnit ∘ digitValue) c = id c :=
      fun c hc => digitUnit_digitValue (ht c (List.mem_reverse.mp hc))
    rw [List.map_congr_left hid, List.map_id]
  have hlt : ∀ t : Text, (∀ c ∈ t, isDigit c = true) → ∀ d ∈ t.reverse.map digitValue, d < 10 := by
    intro t ht d hd
    obtain ⟨c, hc, rfl⟩ := List.mem_map.mp hd
    exact digitValue_lt (ht c (List.mem_reverse.mp hc))
  have hfixed : ∀ c ∈ fixed s.length (digitsValue s), isDigit c = true := fun c => isDigit_of_mem_fixed
  have hlength := length_fixed hne (digitsValue_lt hs)
  have hdigits : (fixed s.length (digitsValue s)).reverse.map digitValue = s.reverse.map digitValue := by
    apply Nat.ofDigits_inj_of_len_eq (b := 10) (by norm_num)
    · simp only [List.length_map, List.length_reverse, hlength]
    · exact hlt _ hfixed
    · exact hlt s hs
    · exact digitsValue_fixed _ _
  apply List.reverse_injective
  rw [← hunits _ hfixed, hdigits, hunits s hs]

theorem readDigits_fixed (hwidth : 0 < width) (hn : n < 10 ^ width) :
    readDigits width (fixed width n ++ rest) = some (n, rest) := by
  have hlength := length_fixed hwidth hn
  have htake : (fixed width n ++ rest).take width = fixed width n := List.take_left' hlength
  have hdrop : (fixed width n ++ rest).drop width = rest := List.drop_left' hlength
  have hall : (fixed width n).all isDigit = true := List.all_eq_true.mpr fun c => isDigit_of_mem_fixed
  rw [readDigits, htake, hdrop, if_pos, digitsValue_fixed]
  refine ⟨?_, hall⟩
  rw [List.length_append, hlength]
  exact Nat.le_add_right _ _

theorem eq_of_readDigits (hwidth : 0 < width) (h : readDigits width s = some (n, rest)) : s = fixed width n ++ rest := by
  rw [readDigits] at h
  split at h
  · rename_i hdigits
    obtain ⟨hle, hall⟩ := hdigits
    obtain ⟨rfl, rfl⟩ := Prod.mk.inj (Option.some.inj h)
    have hlength : (s.take width).length = width := List.length_take_of_le hle
    have hfixed := fixed_digitsValue (List.all_eq_true.mp hall) (by omega)
    rw [hlength] at hfixed
    rw [hfixed, List.take_append_drop]
  · cases h

theorem readUnit_cons (c : Char) : readUnit c (unit c :: s) = some s := if_pos rfl

theorem eq_of_readUnit {c : Char} (h : readUnit c s = some rest) : s = unit c :: rest := by
  cases s with
  | nil => cases h
  | cons d s =>
    rw [readUnit] at h
    split at h
    · rename_i hd
      rw [hd, Option.some.inj h]
    · cases h

theorem readField_fixed {separator : Char} (hwidth : 0 < width) (hn : n < 10 ^ width) :
    readField width separator (fixed width n ++ unit separator :: rest) = some (n, rest) := by
  rw [readField, readDigits_fixed hwidth hn]
  simp only [Option.bind_eq_bind, Option.bind_some, readUnit_cons]
  rfl

theorem eq_of_readField {separator : Char} (hwidth : 0 < width) (h : readField width separator s = some (n, rest)) :
    s = fixed width n ++ unit separator :: rest := by
  simp only [readField, Option.bind_eq_bind, Option.bind_eq_some_iff, Prod.exists] at h
  obtain ⟨n', s₁, hdigits, s₂, hunit, heq⟩ := h
  obtain ⟨rfl, rfl⟩ := Prod.mk.inj (Option.some.inj heq)
  rw [eq_of_readDigits hwidth hdigits, eq_of_readUnit hunit]

end Fixed

/-! ### Offsets from UTC -/

inductive Offset where
  | utc
  | shifted (isWest : Bool) (hours minutes : Nat)
deriving DecidableEq

namespace Offset

def IsValid : Offset → Prop
  | utc => True
  | shifted _ hours minutes => hours < 24 ∧ minutes < 60

instance (offset : Offset) : Decidable offset.IsValid :=
  match offset with
  | utc => isTrue trivial
  | shifted _ hours minutes => inferInstanceAs (Decidable (hours < 24 ∧ minutes < 60))

def text : Offset → Text
  | utc => Js.text "Z"
  | shifted isWest hours minutes => unit (if isWest then '-' else '+') :: fixed 2 hours ++ unit ':' :: fixed 2 minutes

/-- How many minutes the local time is ahead of UTC. -/
def ahead : Offset → Int
  | utc => 0
  | shifted isWest hours minutes => if isWest then -(60 * hours + minutes) else 60 * hours + minutes

def readShifted (isWest : Bool) (s : Text) : Option Offset := do
  let (hours, s) ← readField 2 ':' s
  let (minutes, s) ← readDigits 2 s
  if s = [] then some (shifted isWest hours minutes) else none

def read : Text → Option Offset
  | [] => none
  | c :: s =>
    if c = unit 'Z' then if s = [] then some utc else none
    else if c = unit '-' then readShifted true s
    else if c = unit '+' then readShifted false s
    else none

theorem readShifted_eq {isWest : Bool} {hours minutes : Nat} (h : (shifted isWest hours minutes).IsValid) :
    readShifted isWest (fixed 2 hours ++ unit ':' :: fixed 2 minutes) = some (shifted isWest hours minutes) := by
  obtain ⟨hhours, hminutes⟩ := h
  have hreadHours := @readField_fixed 2 hours (fixed 2 minutes) ':' (by norm_num) (by omega)
  have hreadMinutes := @readDigits_fixed 2 minutes [] (by norm_num) (by omega)
  rw [List.append_nil] at hreadMinutes
  simp only [readShifted, hreadHours, hreadMinutes, Option.bind_eq_bind, Option.bind_some, if_true]

theorem eq_of_readShifted {isWest : Bool} {s : Text} {offset : Offset} (h : readShifted isWest s = some offset) :
    offset.text = unit (if isWest then '-' else '+') :: s := by
  simp only [readShifted, Option.bind_eq_bind, Option.bind_eq_some_iff, Prod.exists] at h
  obtain ⟨hours, s₁, hhours, minutes, s₂, hminutes, hrest⟩ := h
  split at hrest
  · rename_i hempty
    rw [eq_of_readField (by norm_num) hhours, eq_of_readDigits (by norm_num) hminutes, hempty,
      List.append_nil, ← Option.some.inj hrest]
    rfl
  · cases hrest

theorem read_text {offset : Offset} (h : offset.IsValid) : read offset.text = some offset := by
  cases offset with
  | utc => rfl
  | shifted isWest hours minutes =>
    cases isWest with
    | true => exact readShifted_eq h
    | false => exact readShifted_eq h

theorem text_of_read {s : Text} {offset : Offset} (h : read s = some offset) : offset.text = s := by
  cases s with
  | nil => cases h
  | cons c s =>
    rw [read] at h
    split at h
    · rename_i hc
      split at h
      · rename_i hempty
        rw [hc, hempty, ← Option.some.inj h]
        rfl
      · cases h
    · split at h
      · rename_i hc
        rw [hc]
        exact eq_of_readShifted h
      · split at h
        · rename_i hc
          rw [hc]
          exact eq_of_readShifted h
        · cases h

end Offset

/-! ### Dates and times -/

structure DateTime where
  year : Nat
  month : Nat
  day : Nat
  hour : Nat
  minute : Nat
  second : Nat
  millisecond : Option Nat
  offset : Offset
deriving DecidableEq

namespace DateTime

structure IsValid (dateTime : DateTime) : Prop where
  year : dateTime.year < 10 ^ 4
  month : 1 ≤ dateTime.month ∧ dateTime.month ≤ 12
  day : 1 ≤ dateTime.day ∧ dateTime.day ≤ daysInMonth (isLeapYear dateTime.year) (dateTime.month - 1)
  hour : dateTime.hour < 24
  minute : dateTime.minute < 60
  second : dateTime.second < 60
  millisecond : ∀ millisecond ∈ dateTime.millisecond, millisecond < 10 ^ 3
  offset : dateTime.offset.IsValid

variable (dateTime : DateTime)

theorem isValid_iff : dateTime.IsValid ↔ dateTime.year < 10 ^ 4 ∧ (1 ≤ dateTime.month ∧ dateTime.month ≤ 12) ∧
    (1 ≤ dateTime.day ∧ dateTime.day ≤ daysInMonth (isLeapYear dateTime.year) (dateTime.month - 1)) ∧
    dateTime.hour < 24 ∧ dateTime.minute < 60 ∧ dateTime.second < 60 ∧
    (∀ millisecond ∈ dateTime.millisecond, millisecond < 10 ^ 3) ∧ dateTime.offset.IsValid := by
  constructor
  · intro h
    exact ⟨h.year, h.month, h.day, h.hour, h.minute, h.second, h.millisecond, h.offset⟩
  · rintro ⟨hyear, hmonth, hday, hhour, hminute, hsecond, hmillisecond, hoffset⟩
    exact ⟨hyear, hmonth, hday, hhour, hminute, hsecond, hmillisecond, hoffset⟩

instance : Decidable dateTime.IsValid := decidable_of_iff _ dateTime.isValid_iff.symm

def middle : Text :=
  fixed 2 dateTime.month ++ unit '-' :: fixed 2 dateTime.day ++ unit 'T' :: fixed 2 dateTime.hour ++
    unit ':' :: fixed 2 dateTime.minute ++ unit ':' :: fixed 2 dateTime.second

def fraction : Option Nat → Text
  | none => []
  | some millisecond => unit '.' :: fixed 3 millisecond

def text : Text :=
  fixed 4 dateTime.year ++ unit '-' :: (dateTime.middle ++ (fraction dateTime.millisecond ++ dateTime.offset.text))

/-- The instant in milliseconds since the beginning of 1970 in UTC. -/
def time : Int :=
  makeDay dateTime.year (dateTime.month - 1) dateTime.day * 86400000 + dateTime.hour * 3600000 +
    dateTime.minute * 60000 + dateTime.second * 1000 + (dateTime.millisecond.getD 0 : Nat) -
    dateTime.offset.ahead * 60000

def readFraction (s : Text) : Option (Option Nat × Text) :=
  match s with
  | [] => some (none, [])
  | c :: rest => if c = unit '.' then (readDigits 3 rest).map fun (n, rest) => (some n, rest) else some (none, s)

def read (s : Text) : Option DateTime := do
  let (year, s) ← readField 4 '-' s
  let (month, s) ← readField 2 '-' s
  let (day, s) ← readField 2 'T' s
  let (hour, s) ← readField 2 ':' s
  let (minute, s) ← readField 2 ':' s
  let (second, s) ← readDigits 2 s
  let (millisecond, s) ← readFraction s
  let offset ← Offset.read s
  let dateTime : DateTime := ⟨year, month, day, hour, minute, second, millisecond, offset⟩
  if dateTime.IsValid then some dateTime else none

/-- The instant that a text denotes, if it is one in the extended format. -/
def parse (s : Text) : Option Int := (read s).map time

/-! ### Reading what has been written -/

theorem readFraction_fraction {millisecond : Option Nat} (h : ∀ n ∈ millisecond, n < 10 ^ 3) {s : Text}
    (hs : ∀ c ∈ s.head?, c ≠ unit '.') : readFraction (fraction millisecond ++ s) = some (millisecond, s) := by
  cases millisecond with
  | none =>
    cases s with
    | nil => rfl
    | cons c s => exact if_neg (hs c rfl)
  | some n =>
    have hread := @readDigits_fixed 3 n s (by norm_num) (h n rfl)
    rw [fraction, List.cons_append, readFraction, if_pos rfl, hread]
    rfl

theorem eq_of_readFraction {s rest : Text} {millisecond : Option Nat} (h : readFraction s = some (millisecond, rest)) :
    s = fraction millisecond ++ rest := by
  cases s with
  | nil =>
    obtain ⟨rfl, rfl⟩ := Prod.mk.inj (Option.some.inj h)
    rfl
  | cons c s =>
    rw [readFraction] at h
    split at h
    · rename_i hc
      obtain ⟨⟨n, rest'⟩, hread, heq⟩ := Option.map_eq_some_iff.mp h
      obtain ⟨rfl, rfl⟩ := Prod.mk.inj heq
      rw [hc, eq_of_readDigits (by norm_num) hread]
      rfl
    · obtain ⟨rfl, rfl⟩ := Prod.mk.inj (Option.some.inj h)
      rfl

theorem head?_offset_text (offset : Offset) : ∀ c ∈ offset.text.head?, c ≠ unit '.' := by
  intro c hc
  cases offset with
  | utc =>
    cases hc
    decide
  | shifted isWest hours minutes =>
    cases hc
    cases isWest <;> decide

variable {dateTime}

theorem length_middle (hmonth : dateTime.month < 10 ^ 2) (hday : dateTime.day < 10 ^ 2) (hhour : dateTime.hour < 10 ^ 2)
    (hminute : dateTime.minute < 10 ^ 2) (hsecond : dateTime.second < 10 ^ 2) : dateTime.middle.length = 14 := by
  have htwo : ∀ {n}, n < 10 ^ 2 → (fixed 2 n).length = 2 := fun hn => length_fixed (by norm_num) hn
  simp only [middle, List.length_append, List.length_cons, htwo hmonth, htwo hday, htwo hhour, htwo hminute,
    htwo hsecond]

theorem IsValid.lt_hundred (h : dateTime.IsValid) :
    (dateTime.month < 10 ^ 2 ∧ dateTime.day < 10 ^ 2) ∧ dateTime.hour < 10 ^ 2 ∧ dateTime.minute < 10 ^ 2 ∧
      dateTime.second < 10 ^ 2 :=
  ⟨⟨lt_of_le_of_lt h.month.2 (by norm_num), lt_of_le_of_lt (h.day.2.trans (daysInMonth_le _ _)) (by norm_num)⟩,
    lt_trans h.hour (by norm_num), lt_trans h.minute (by norm_num), lt_trans h.second (by norm_num)⟩

theorem length_middle_of_isValid (h : dateTime.IsValid) : dateTime.middle.length = 14 := by
  obtain ⟨⟨hmonth, hday⟩, hhour, hminute, hsecond⟩ := h.lt_hundred
  exact length_middle hmonth hday hhour hminute hsecond

theorem read_text (h : dateTime.IsValid) : read dateTime.text = some dateTime := by
  obtain ⟨⟨hmonth, hday⟩, hhour, hminute, hsecond⟩ := h.lt_hundred
  obtain ⟨year, month, day, hour, minute, second, millisecond, offset⟩ := dateTime
  have htwo : ∀ {n : Nat} {separator : Char} {s : Text}, n < 10 ^ 2 →
      readField 2 separator (fixed 2 n ++ unit separator :: s) = some (n, s) :=
    fun hn => readField_fixed (by norm_num) hn
  have hfour : ∀ {s : Text}, readField 4 '-' (fixed 4 year ++ unit '-' :: s) = some (year, s) :=
    readField_fixed (by norm_num) h.year
  have hlast : ∀ {s : Text}, readDigits 2 (fixed 2 second ++ s) = some (second, s) :=
    readDigits_fixed (by norm_num) hsecond
  have hfraction : readFraction (fraction millisecond ++ offset.text) = some (millisecond, offset.text) :=
    readFraction_fraction h.millisecond (head?_offset_text offset)
  simp only [read, text, middle, List.append_assoc, List.cons_append, hfour, htwo hmonth, htwo hday, htwo hhour,
    htwo hminute, hlast, hfraction, Offset.read_text h.offset, Option.bind_eq_bind, Option.bind_some]
  exact if_pos h

theorem text_of_read {s : Text} (h : read s = some dateTime) : dateTime.IsValid ∧ dateTime.text = s := by
  simp only [read, Option.bind_eq_bind, Option.bind_eq_some_iff, Prod.exists] at h
  obtain ⟨year, s₁, hyear, month, s₂, hmonth, day, s₃, hday, hour, s₄, hhour, minute, s₅, hminute, second, s₆, hsecond,
    millisecond, s₇, hmillisecond, offset, hoffset, hvalid⟩ := h
  split at hvalid
  · rename_i hdateTime
    obtain rfl := Option.some.inj hvalid
    refine ⟨hdateTime, ?_⟩
    rw [eq_of_readField (by norm_num) hyear, eq_of_readField (by norm_num) hmonth, eq_of_readField (by norm_num) hday,
      eq_of_readField (by norm_num) hhour, eq_of_readField (by norm_num) hminute,
      eq_of_readDigits (by norm_num) hsecond, eq_of_readFraction hmillisecond, ← Offset.text_of_read hoffset]
    simp only [text, middle, List.append_assoc, List.cons_append]
  · cases hvalid

/-- The texts in the extended format are those of the valid dates and times. -/
theorem parse_eq_some_iff {s : Text} {t : Int} :
    parse s = some t ↔ ∃ dateTime : DateTime, dateTime.IsValid ∧ dateTime.text = s ∧ dateTime.time = t := by
  rw [parse, Option.map_eq_some_iff]
  constructor
  · rintro ⟨dateTime, hread, htime⟩
    obtain ⟨hvalid, htext⟩ := text_of_read hread
    exact ⟨dateTime, hvalid, htext, htime⟩
  · rintro ⟨dateTime, hvalid, rfl, htime⟩
    exact ⟨dateTime, read_text hvalid, htime⟩

end DateTime

end Iso8601
