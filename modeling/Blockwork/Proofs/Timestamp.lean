import Blockwork.Proofs.Json.Numerals
import Blockwork.Proofs.Text
import Blockwork.Timestamp
import Mathlib.Algebra.Ring.Nat

/-!
# Points in time read back from text

A point in time is written as a date and a time of day and read back from them.  The text is a
sequence of digit runs, each ended by a mark that is neither a digit nor a blank, so reading it goes
field by field; what remains is that the calendar can be turned round.

Dates are computed in eras of four hundred years that start in March, so that leap days come last in
their year.  A day of an era is first *levelled*: the leap days before it are taken off, and what is
left is divided by three hundred and sixty-five.

## What is load-bearing

* `EraDay.levelled_dayOfEra`: a day is levelled into the year it lies in.  Levelling is monotone, so
  the first and the last day of each of the four hundred years decide for all days between them.
* `daysOf_dateOf`: days are counted back from their date, and the date is one of the calendar.
* `IsProper`: what a point in time must be to have a written form, which is a year in range and no
  more nanoseconds than its second has.
-/

namespace Blockwork.Timestamp

/-! ## The calendar -/

/-- The days of an era before a year of it. -/
def daysBefore (year : Nat) : Nat := 365 * year + year / 4 - year / 100

/-- The days of a year of an era, which ends with the February of the next calendar year. -/
def daysOfYear (year : Nat) : Nat := if isLeapYear (year + 1) then 366 else 365

/-- A day of an era, less the leap days before it. -/
def levelled (day : Nat) : Nat := day - day / 1460 + day / 36524 - day / 146096

theorem levelled_mono {a b : Nat} (h : a ≤ b) : levelled a ≤ levelled b := by
  induction h with
  | refl => exact Nat.le_refl _
  | step _ ih =>
      unfold levelled at ih ⊢
      omega

/-- The first and the last day of each year are levelled into it, and the next year, or the next
era, follows. -/
theorem levelled_ends : ∀ year < 400,
    levelled (daysBefore year) / 365 = year ∧
      levelled (daysBefore year + (daysOfYear year - 1)) / 365 = year ∧
      daysBefore year + daysOfYear year = if year = 399 then 146097 else daysBefore (year + 1) := by
  decide +kernel

theorem daysOfYear_le (year : Nat) : daysOfYear year ≤ 366 := by
  unfold daysOfYear
  split <;> decide

/-- Every day of an era lies in one of its years. -/
theorem exists_year {day : Nat} (h : day < 146097) : ∃ year < 400,
    daysBefore year ≤ day ∧ day < daysBefore year + daysOfYear year := by
  -- by induction on how many years of the era the day may lie in
  have among (n : Nat) : n < 400 → day < daysBefore n + daysOfYear n →
      ∃ year < 400, daysBefore year ≤ day ∧ day < daysBefore year + daysOfYear year := by
    induction n with
    | zero => exact fun small before => ⟨0, small, Nat.zero_le _, before⟩
    | succ n ih =>
        intro small before
        by_cases here : daysBefore (n + 1) ≤ day
        · exact ⟨n + 1, small, here, before⟩
        · have next := (levelled_ends n (by omega)).2.2
          rw [if_neg (by omega)] at next
          exact ih (by omega) (by omega)
  have last := (levelled_ends 399 (by decide)).2.2
  exact among 399 (by decide) (by rw [last]; exact h)

/-- A day by its era, the year of the era and the day of the year. -/
structure EraDay where
  /-- The era. -/
  era : Int
  /-- The year of the era. -/
  year : Nat
  /-- The day of the year. -/
  day : Nat
  /-- Eras have four hundred years. -/
  year_lt : year < 400
  /-- The year has the day. -/
  day_lt : day < daysOfYear year

namespace EraDay

variable (d : EraDay)

/-- The day of the era. -/
def dayOfEra : Nat := daysBefore d.year + d.day

/-- Days since the start of 1970. -/
def days : Int := d.era * 146097 + d.dayOfEra - 719468

/-- The month, counted from March. -/
def month : Nat := (5 * d.day + 2) / 153

/-- The month in the calendar. -/
def calendarMonth : Nat := if d.month < 10 then d.month + 3 else d.month - 9

/-- The year in the calendar. -/
def calendarYear : Int := d.year + d.era * 400 + (if d.calendarMonth ≤ 2 then 1 else 0)

/-- The day of the month. -/
def dayOfMonth : Nat := d.day - (153 * d.month + 2) / 5 + 1

theorem day_lt_366 : d.day < 366 := Nat.lt_of_lt_of_le d.day_lt (daysOfYear_le d.year)

theorem month_lt : d.month < 12 := by
  have := d.day_lt_366
  unfold month
  omega

/-- Days are counted by eras. -/
theorem exists_days (days : Int) : ∃ d : EraDay, d.days = days := by
  obtain ⟨day, day_eq⟩ := Int.eq_ofNat_of_zero_le
    (Int.emod_nonneg (days + 719468) (by decide : (146097 : Int) ≠ 0))
  obtain ⟨year, year_lt, first, last⟩ := @exists_year day (by omega)
  refine ⟨⟨(days + 719468) / 146097, year, day - daysBefore year, year_lt, by omega⟩, ?_⟩
  unfold EraDay.days dayOfEra
  dsimp only
  omega

/-- **A day is levelled into its year**, since the first and the last day of the year are. -/
theorem levelled_dayOfEra : levelled d.dayOfEra / 365 = d.year := by
  obtain ⟨first, last, -⟩ := levelled_ends d.year d.year_lt
  have lower : levelled (daysBefore d.year) ≤ levelled d.dayOfEra :=
    levelled_mono (Nat.le_add_right ..)
  have upper : levelled d.dayOfEra ≤ levelled (daysBefore d.year + (daysOfYear d.year - 1)) :=
    levelled_mono (Nat.add_le_add_left (Nat.le_sub_one_of_lt d.day_lt) _)
  omega

theorem dayOfEra_lt : d.dayOfEra < 146097 := by
  have next := (levelled_ends d.year d.year_lt).2.2
  have inside := d.day_lt
  have small := d.year_lt
  unfold dayOfEra daysBefore at *
  split at next <;> omega

theorem dateOf_days : dateOf d.days = (d.calendarYear, d.calendarMonth, d.dayOfMonth) := by
  have bound := d.dayOfEra_lt
  have inYear := d.day_lt_366
  have inMonth := d.month_lt
  have start : d.days + 719468 = d.era * 146097 + d.dayOfEra := by
    unfold days
    omega
  have era : (d.era * 146097 + (d.dayOfEra : Int)).fdiv 146097 = d.era := by
    rw [Int.fdiv_eq_ediv_of_nonneg _ (by decide)]
    omega
  have ofEra : d.era * 146097 + (d.dayOfEra : Int) - d.era * 146097 = d.dayOfEra := by omega
  have year : ((d.dayOfEra : Int) - d.dayOfEra / 1460 + d.dayOfEra / 36524 -
      d.dayOfEra / 146096) / 365 = d.year := by
    have level := d.levelled_dayOfEra
    unfold levelled at level
    omega
  have ofYear : (d.dayOfEra : Int) - (365 * d.year + d.year / 4 - d.year / 100) = d.day := by
    unfold dayOfEra daysBefore
    omega
  have month : (5 * (d.day : Int) + 2) / 153 = d.month := by
    unfold EraDay.month
    omega
  have ofMonth : ((d.day : Int) - (153 * d.month + 2) / 5 + 1).toNat = d.dayOfMonth := by
    unfold dayOfMonth EraDay.month
    omega
  have calendar : (if (d.month : Int) < 10 then (d.month : Int) + 3 else d.month - 9) =
      d.calendarMonth := by
    unfold calendarMonth
    split <;> split <;> omega
  unfold dateOf calendarYear
  simp only [start, era, ofEra, year, ofYear, month, ofMonth, calendar, Int.toNat_natCast]
  split <;> split <;> first | rfl | omega

theorem daysOf_calendar : daysOf d.calendarYear d.calendarMonth d.dayOfMonth = d.days := by
  have inYear := d.day_lt_366
  have inMonth := d.month_lt
  have small := d.year_lt
  have start : (if d.calendarMonth ≤ 2 then d.calendarYear - 1 else d.calendarYear) =
      d.year + d.era * 400 := by
    unfold calendarYear
    split <;> omega
  have era : ((d.year : Int) + d.era * 400).fdiv 400 = d.era := by
    rw [Int.fdiv_eq_ediv_of_nonneg _ (by decide)]
    omega
  have ofEra : (d.year : Int) + d.era * 400 - d.era * 400 = d.year := by omega
  have month : (if 2 < d.calendarMonth then (d.calendarMonth : Int) - 3 else d.calendarMonth + 9) =
      d.month := by
    unfold calendarMonth
    split <;> split <;> omega
  have ofYear : (153 * (d.month : Int) + 2) / 5 + d.dayOfMonth - 1 = d.day := by
    unfold dayOfMonth EraDay.month
    omega
  unfold daysOf
  simp only [start, era, ofEra, month, ofYear]
  unfold days dayOfEra daysBefore
  omega

end EraDay

/-- A date of the calendar. -/
structure IsDate (year : Int) (month day : Nat) : Prop where
  /-- Months are counted from one. -/
  month_pos : 1 ≤ month
  /-- There are twelve. -/
  month_le : month ≤ 12
  /-- Days are counted from one. -/
  day_pos : 1 ≤ day
  /-- The month has the day. -/
  day_le : day ≤ daysIn year month

theorem isLeapYear_add_era (year era : Int) : isLeapYear (year + era * 400) = isLeapYear year := by
  have four : (year + era * 400) % 4 = year % 4 := by omega
  have hundred : (year + era * 400) % 100 = year % 100 := by omega
  have all : (year + era * 400) % 400 = year % 400 := by omega
  rw [isLeapYear, isLeapYear, four, hundred, all]

theorem daysIn_le (year : Int) (month : Nat) : daysIn year month ≤ 31 := by
  unfold daysIn
  repeat' split
  all_goals decide

/-- The last day of a year that starts in March is in February, and a twenty-ninth only in leap
years. -/
theorem EraDay.dayOfMonth_le (d : EraDay) :
    d.dayOfMonth ≤ daysIn d.calendarYear d.calendarMonth := by
  have inYear := d.day_lt_366
  have inMonth := d.month_lt
  have february : d.calendarMonth = 2 → isLeapYear d.calendarYear = false → d.day < 365 := by
    intro second common
    have regroup : d.calendarYear = (d.year + 1) + d.era * 400 := by
      unfold calendarYear
      rw [if_pos (by omega)]
      omega
    have inside := d.day_lt
    rw [regroup, isLeapYear_add_era] at common
    rwa [daysOfYear, common] at inside
  unfold daysIn
  split
  · next second =>
    unfold calendarMonth at second
    unfold dayOfMonth
    split
    · split at second <;> omega
    · next common =>
      have before := february ‹_› (Bool.eq_false_iff.mpr common)
      split at second <;> omega
  · split
    · next short =>
      simp only [Bool.or_eq_true, decide_eq_true_eq] at short
      unfold calendarMonth month at short
      unfold dayOfMonth month
      split at short <;> omega
    · unfold dayOfMonth month
      omega

/-- **Days are counted back from their date**, which is one of the calendar. -/
theorem daysOf_dateOf {days year : Int} {month day : Nat} (date : dateOf days = (year, month, day)) :
    daysOf year month day = days ∧ IsDate year month day := by
  obtain ⟨d, rfl⟩ := EraDay.exists_days days
  rw [d.dateOf_days] at date
  obtain ⟨rfl, rest⟩ := Prod.mk.inj date
  obtain ⟨rfl, rfl⟩ := Prod.mk.inj rest
  have inMonth := d.month_lt
  refine ⟨d.daysOf_calendar, ?_, ?_, Nat.le_add_left .., d.dayOfMonth_le⟩
  · unfold EraDay.calendarMonth
    split <;> omega
  · unfold EraDay.calendarMonth
    split <;> omega

/-! ## Fields -/

open Json (IsRun)

section Runs

variable {ds : List Char} (run : IsRun ds)
include run

theorem trimStartChars_run (rest : List Char) :
    Text.trimStartChars (ds ++ rest) = ds ++ rest := by
  cases ds with
  | nil => exact absurd rfl run.nonempty
  | cons c ds =>
      have first := Text.isBlank_of_isDigit (run.digits c (List.mem_cons_self ..))
      simp [Text.trimStartChars, first]

/-- A run of digits ends where something else starts. -/
theorem span_run {c : Char} (other : c.isDigit = false) (rest : List Char) :
    (ds ++ c :: rest).takeWhile Char.isDigit = ds ∧
      (ds ++ c :: rest).dropWhile Char.isDigit = c :: rest := by
  apply Json.span_digits run.digits
  exact ⟨List.takeWhile_cons_of_neg (by simp [other]), List.dropWhile_cons_of_neg (by simp [other])⟩

theorem field?_run {low high : Nat} (least : low ≤ Text.digitsValue ds)
    (most : Text.digitsValue ds ≤ high) (rest : List Char) :
    field? ds.length low high (ds ++ rest) = some (Text.digitsValue ds, rest) := by
  have taken : ((ds ++ rest).take ds.length).takeWhile Char.isDigit = ds := by
    rw [List.take_left]
    have whole := (@Json.span_digits ds [] run.digits ⟨rfl, rfl⟩).1
    rwa [List.append_nil] at whole
  simp only [field?, trimStartChars_run run, taken, List.drop_left]
  simp [run.nonempty]
  omega

/-- A year without a sign has four digits. -/
theorem year?_run (four : ds.length = 4) (most : Text.digitsValue ds ≤ 9999) (rest : List Char) :
    year? (ds ++ rest) = some ((Text.digitsValue ds : Int), rest) := by
  have read := field?_run run (Nat.zero_le _) most rest
  rw [four] at read
  unfold year?
  rw [trimStartChars_run run]
  cases ds with
  | nil => exact absurd rfl run.nonempty
  | cons c ds =>
      have digit := run.digits c (List.mem_cons_self ..)
      rw [List.cons_append] at read ⊢
      dsimp only
      split
      · next sign =>
        rw [(List.cons.inj sign).1] at digit
        exact absurd digit (by decide)
      · next sign =>
        rw [(List.cons.inj sign).1] at digit
        exact absurd digit (by decide)
      · rw [read, Option.map_some]

theorem year?_minus (rest : List Char) :
    year? ('-' :: (ds ++ '-' :: rest)) = some (-(Text.digitsValue ds : Int), '-' :: rest) := by
  have hyphen : '-'.isDigit = false := by decide
  have start : Text.trimStartChars ('-' :: (ds ++ '-' :: rest)) = '-' :: (ds ++ '-' :: rest) := rfl
  obtain ⟨front, back⟩ := span_run run hyphen rest
  simp [year?, start, front, back, run.nonempty]

theorem year?_plus (rest : List Char) :
    year? ('+' :: (ds ++ '-' :: rest)) = some ((Text.digitsValue ds : Int), '-' :: rest) := by
  have hyphen : '-'.isDigit = false := by decide
  have start : Text.trimStartChars ('+' :: (ds ++ '-' :: rest)) = '+' :: (ds ++ '-' :: rest) := rfl
  obtain ⟨front, back⟩ := span_run run hyphen rest
  simp [year?, start, front, back, run.nonempty]

/-- The digits of a fraction count from the point. -/
theorem fraction?_run (most : ds.length ≤ 9) :
    fraction? ('.' :: (ds ++ ['Z'])) =
      some (Text.digitsValue ds * 10 ^ (9 - ds.length), ['Z']) := by
  have letter : 'Z'.isDigit = false := by decide
  obtain ⟨front, back⟩ := span_run run letter []
  simp [fraction?, front, back, run.nonempty, List.take_of_length_le most]

end Runs

/-- The characters of a number with zeros in front. -/
theorem toList_padded (width n : Nat) : (padded width n).toList =
    List.replicate (width - (Nat.toDigits 10 n).length) '0' ++ Nat.toDigits 10 n := by
  simp [padded, Text.natural]

theorem isRun_padded (width n : Nat) : IsRun (padded width n).toList := by
  rw [toList_padded]
  exact Json.isRun_zeros_append (Json.isRun_toDigits n) _

theorem digitsValue_padded (width n : Nat) : Text.digitsValue (padded width n).toList = n := by
  have zeros (k : Nat) : Text.digitsAfter 0 (List.replicate k '0') = 0 := by
    induction k with
    | zero => rfl
    | succ k ih => exact ih
  have value : Text.digitsAfter 0 (Nat.toDigits 10 n) = n :=
    Nat.ofDigitChars_toDigits (by decide) (by decide)
  rw [Text.digitsValue_eq, toList_padded, Text.digitsAfter_append, zeros, value]

theorem length_padded {width n : Nat} (pos : 0 < width) (small : n < 10 ^ width) :
    (padded width n).toList.length = width := by
  have digits : (Nat.toDigits 10 n).length ≤ width :=
    (Nat.length_toDigits_le_iff (by decide) pos).mpr small
  rw [toList_padded, List.length_append, List.length_replicate]
  omega

theorem field?_padded {width low high n : Nat} (pos : 0 < width) (small : n < 10 ^ width)
    (least : low ≤ n) (most : n ≤ high) (rest : List Char) :
    field? width low high ((padded width n).toList ++ rest) = some (n, rest) := by
  rw [← digitsValue_padded width n] at least most
  have read := field?_run (isRun_padded width n) least most rest
  rwa [length_padded pos small, digitsValue_padded] at read

theorem year?_writtenYear (year : Int) (rest : List Char) :
    year? ((writtenYear year).toList ++ '-' :: rest) = some (year, '-' :: rest) := by
  have unsigned := digitsValue_padded 4 year.toNat
  have size := digitsValue_padded 4 year.natAbs
  unfold writtenYear
  split
  · next plain =>
    have four := length_padded (n := year.toNat) (by decide : 0 < 4) (by omega)
    rw [year?_run (isRun_padded 4 _) four (by omega), unsigned, Int.toNat_of_nonneg plain.1]
  · split
    · next negative =>
      have read := year?_minus (isRun_padded 4 year.natAbs) rest
      rw [size, Int.ofNat_natAbs_of_nonpos (by omega), Int.neg_neg] at read
      simpa using read
    · next positive =>
      have read := year?_plus (isRun_padded 4 year.natAbs) rest
      rw [size, Int.natAbs_of_nonneg (by omega)] at read
      simpa using read

theorem after?_self {c : Char} (h : Text.isBlank c = false) (rest : List Char) :
    after? c (c :: rest) = some rest := by
  simp [after?, Text.trimStartChars, h]

theorem fraction?_padded {width n : Nat} (pos : 0 < width) (most : width ≤ 9)
    (small : n < 10 ^ width) :
    fraction? (("." ++ padded width n).toList ++ ['Z']) = some (n * 10 ^ (9 - width), ['Z']) := by
  have length := length_padded pos small
  have read := fraction?_run (isRun_padded width n) (by omega)
  rw [length, digitsValue_padded] at read
  simpa using read

theorem fraction?_writtenFraction {nanos : Nat} (small : nanos < 1000000000) :
    fraction? ((writtenFraction nanos).toList ++ ['Z']) = some (nanos, ['Z']) := by
  unfold writtenFraction
  split
  · next none => subst none; rfl
  · split
    · next milli =>
      have whole : nanos / 1000000 * 10 ^ (9 - 3) = nanos :=
        Nat.div_mul_cancel (Nat.dvd_of_mod_eq_zero milli)
      rw [fraction?_padded (by decide) (by decide) (by omega), whole]
    · split
      · next micro =>
        have whole : nanos / 1000 * 10 ^ (9 - 6) = nanos :=
          Nat.div_mul_cancel (Nat.dvd_of_mod_eq_zero micro)
        rw [fraction?_padded (by decide) (by decide) (by omega), whole]
      · have whole : nanos * 10 ^ (9 - 9) = nanos := Nat.mul_one nanos
        rw [fraction?_padded (by decide) (by decide) (by omega), whole]

/-- Two-digit fields are read back. -/
theorem field?_two {low high n : Nat} (least : low ≤ n) (most : n ≤ high) (small : high < 100)
    (rest : List Char) : field? 2 low high ((padded 2 n).toList ++ rest) = some (n, rest) :=
  field?_padded (by decide) (by omega) least most rest

/-! ## Points in time -/

/-- A point in time that the calendar has: its year is in range, and only the last second of a
minute goes on for a leap second. -/
structure IsProper (t : Timestamp) : Prop where
  /-- Its year has dates. -/
  year : yearInRange (dateOf (t.seconds.fdiv 86400)).1
  /-- Its nanoseconds are those of its second. -/
  nanos : t.nanos < 1000000000 ∨ t.nanos < 2000000000 ∧ t.seconds % 60 = 59

/-- Seconds since the start of the day. -/
def timeOfDay (t : Timestamp) : Nat := (t.seconds - t.seconds.fdiv 86400 * 86400).toNat

/-- The second that is shown, which is the sixtieth for a leap second. -/
def shownSecond (t : Timestamp) : Nat := t.timeOfDay % 60 + (if 1000000000 ≤ t.nanos then 1 else 0)

/-- The nanoseconds that are shown. -/
def shownNanos (t : Timestamp) : Nat :=
  if 1000000000 ≤ t.nanos then t.nanos - 1000000000 else t.nanos

section Parts

variable {t : Timestamp}

/-- The fields of the written form, with the marks between them. -/
theorem toList_text {year : Int} {month day : Nat}
    (date : dateOf (t.seconds.fdiv 86400) = (year, month, day)) :
    t.text.toList = (writtenYear year).toList ++ '-' :: ((padded 2 month).toList ++
      '-' :: ((padded 2 day).toList ++ 'T' :: ((padded 2 (t.timeOfDay / 3600)).toList ++
      ':' :: ((padded 2 (t.timeOfDay / 60 % 60)).toList ++ ':' :: ((padded 2 t.shownSecond).toList ++
      ((writtenFraction t.shownNanos).toList ++ ['Z'])))))) := by
  simp [text, date, timeOfDay, shownSecond, shownNanos]

theorem timeOfDay_eq (t : Timestamp) :
    t.seconds = t.seconds.fdiv 86400 * 86400 + t.timeOfDay ∧ t.timeOfDay < 86400 := by
  have days : t.seconds.fdiv 86400 = t.seconds / 86400 := Int.fdiv_eq_ediv_of_nonneg _ (by decide)
  unfold timeOfDay
  omega

theorem shownSecond_le (t : Timestamp) : t.shownSecond ≤ 60 := by
  unfold shownSecond
  split <;> omega

theorem shownNanos_lt (proper : t.IsProper) : t.shownNanos < 1000000000 := by
  have := proper.nanos
  unfold shownNanos
  split <;> omega

/-- A leap second belongs to the second before it. -/
theorem min_shownSecond (proper : t.IsProper) : min t.shownSecond 59 = t.timeOfDay % 60 := by
  obtain ⟨seconds, -⟩ := t.timeOfDay_eq
  have := proper.nanos
  unfold shownSecond
  split <;> omega

/-- Only leap seconds are shown as sixtieth ones. -/
theorem nanos_of_shown (proper : t.IsProper) :
    (if t.shownSecond = 60 then t.shownNanos + 1000000000 else t.shownNanos) = t.nanos := by
  obtain ⟨seconds, -⟩ := t.timeOfDay_eq
  have := proper.nanos
  unfold shownSecond shownNanos
  split <;> split at * <;> omega

end Parts

/-- One field has been read, and reading goes on. -/
theorem bind_of_eq {α β : Type} {x : Option α} {f : α → Option β} {a : α} {r : Option β}
    (read : x = some a) (next : f a = r) : (x >>= f) = r := by
  rw [read]
  exact next

/-- **A point in time is read back from its written form.** -/
theorem parse?_text {t : Timestamp} (proper : t.IsProper) : parse? t.text = some t := by
  have inRange := proper.year
  generalize date : dateOf (t.seconds.fdiv 86400) = d at inRange
  obtain ⟨year, month, day⟩ := d
  obtain ⟨counted, month_pos, month_le, day_pos, day_le⟩ := daysOf_dateOf date
  obtain ⟨seconds, inDay⟩ := t.timeOfDay_eq
  have dayBound : day ≤ 31 := Nat.le_trans day_le (daysIn_le year month)
  have hour : t.timeOfDay / 3600 ≤ 23 := by omega
  have minute : t.timeOfDay / 60 % 60 ≤ 59 := by omega
  have hyphen : Text.isBlank '-' = false := by decide
  have colon : Text.isBlank ':' = false := by decide
  have offset : offset? (Text.trimStartChars ['Z']) = some (0, []) := by decide
  -- the seconds of the date and those of the time of day are the seconds that were written
  have again : daysOf year month day * 86400 + (t.timeOfDay / 3600 : Nat) * 3600 +
      (t.timeOfDay / 60 % 60 : Nat) * 60 + (min t.shownSecond 59 : Nat) - 0 = t.seconds := by
    rw [counted, min_shownSecond proper]
    omega
  unfold parse?
  rw [toList_text date]
  -- field by field, with the marks between them
  refine bind_of_eq (year?_writtenYear year _) ?_
  refine bind_of_eq (after?_self hyphen _) ?_
  refine bind_of_eq (field?_two month_pos month_le (by decide) _) ?_
  refine bind_of_eq (after?_self hyphen _) ?_
  refine bind_of_eq (field?_two day_pos dayBound (by decide) _) ?_
  refine (if_pos rfl).trans ?_
  refine bind_of_eq rfl ?_
  refine bind_of_eq (field?_two (Nat.zero_le _) hour (by decide) _) ?_
  refine bind_of_eq (after?_self colon _) ?_
  refine bind_of_eq (field?_two (Nat.zero_le _) minute (by decide) _) ?_
  refine bind_of_eq (after?_self colon _) ?_
  refine bind_of_eq (field?_two (Nat.zero_le _) t.shownSecond_le (by decide) _) ?_
  refine bind_of_eq (fraction?_writtenFraction (shownNanos_lt proper)) ?_
  refine bind_of_eq offset ?_
  dsimp only at inRange ⊢
  rw [again, date, nanos_of_shown proper]
  exact if_pos (by simp [inRange, day_le])

end Blockwork.Timestamp
