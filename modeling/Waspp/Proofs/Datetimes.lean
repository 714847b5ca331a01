/-
Module: Waspp.Proofs.Datetimes
Layer: Proofs
Purpose: `datetime` and its texts.  The text of a date and a time of day is scanned and printed back, but
  for the last second before the epoch, whose time is the error value of `mktime`.  The text of a date alone
  leaves the time of day to what was in memory, and denotes midnight only where that does.
Imports: Waspp.Foundation.Numerals, Waspp.Foundation.Paths, Waspp.Model.Datetime
Trusted boundary: none (fully proved)
Main exports: Moment, Moment.text, PrintsAndParses, LastBeforeEpoch, datetime_law_iff
Open obligations: none
-/
import Waspp.Foundation.Numerals
import Waspp.Foundation.Paths
import Waspp.Model.Datetime

namespace Waspp

open CString Calendar

/-- A date of the years 1000 to 9999 and a time of day. -/
structure Moment where
  date : Date
  hour : Nat
  minute : Nat
  second : Nat
  yearRange : 1000 ≤ date.year ∧ date.year ≤ 9999
  hourRange : hour < 24
  minuteRange : minute < 60
  secondRange : second < 60

namespace Moment

/-- `YYYY-MM-DD`. -/
def dateText (d : Moment) : Bytes :=
  padded 4 d.date.year.toNat ++ '-'.toUInt8 :: (padded 2 d.date.month ++ '-'.toUInt8 :: padded 2 d.date.day)

/-- `HH:MM:SS`. -/
def timeText (d : Moment) : Bytes :=
  padded 2 d.hour ++ ':'.toUInt8 :: (padded 2 d.minute ++ ':'.toUInt8 :: padded 2 d.second)

/-- `YYYY-MM-DD HH:MM:SS`. -/
def text (d : Moment) : Bytes := d.dateText ++ ' '.toUInt8 :: d.timeText

/-- The members of a `datetime` that denotes this moment. -/
def fields (d : Moment) : Datetime where
  year := d.date.year.toNat
  month := d.date.month
  day := d.date.day
  hour := d.hour
  minute := d.minute
  second := d.second

/-- The beginning of the day. -/
def midnight (d : Moment) : Moment where
  date := d.date
  hour := 0
  minute := 0
  second := 0
  yearRange := d.yearRange
  hourRange := by decide
  minuteRange := by decide
  secondRange := by decide

end Moment

/-- With this in memory, the text of the moment gives a `datetime` with its members, which prints the text,
    and the text of its date alone gives midnight. -/
def PrintsAndParses (d : Moment) (memory : StdTm) : Prop :=
  (∃ time, Datetime.ofString memory d.text = .ok time ∧ time = d.fields ∧ time.str = d.text) ∧
    ∃ time, Datetime.ofString memory d.dateText = .ok time ∧ time = d.midnight.fields

/-- 1969-12-31 23:59:59. -/
def LastBeforeEpoch (d : Moment) : Prop :=
  (d.date.year = 1969 ∧ d.date.month = 12 ∧ d.date.day = 31) ∧ d.hour = 23 ∧ d.minute = 59 ∧ d.second = 59

/-- The seconds since midnight of the time of day in these members. -/
def StdTm.secondsOfDay (tm : StdTm) : Int := tm.tmHour * 3600 + tm.tmMin * 60 + tm.tmSec

/-! ### Scanning

A field of the format is scanned with a width.  A padded number has just this width, so each field ends
where the separator begins. -/

/-- The digits of a padded number end where the text goes on with none. -/
theorem takeWhile_padded {k n : Nat} {rest : Bytes} (ends : ∀ b ∈ rest.head?, isdigit b = false) :
    (padded k n ++ rest).takeWhile isdigit = padded k n ∧ (padded k n ++ rest).dropWhile isdigit = rest := by
  rw [List.takeWhile_append_of_pos isdigit_of_mem_padded, List.dropWhile_append_of_pos isdigit_of_mem_padded]
  cases rest with
  | nil => simp
  | cons b rest =>
      have other := ends b rfl
      simp [other]

/-- A digit is neither a blank nor a sign. -/
theorem digit_starts {b : UInt8} (digit : isdigit b = true) : isspace b = false ∧ b ≠ 45 ∧ b ≠ 43 := by
  have all : ∀ b : UInt8, isdigit b = true → isspace b = false ∧ b ≠ 45 ∧ b ≠ 43 :=
    forall_byte (by decide +kernel)
  exact all b digit

/-- A padded number has no blank and no sign in front. -/
theorem dropWhile_padded {k n : Nat} (positive : k ≠ 0) (rest : Bytes) :
    ∃ b more, padded k n ++ rest = b :: more ∧ b ≠ 45 ∧ b ≠ 43 ∧
      (padded k n ++ rest).dropWhile isspace = padded k n ++ rest := by
  cases start : padded k n with
  | nil => exact absurd (by rw [← length_padded k n, start]; rfl) positive
  | cons b more =>
      obtain ⟨blank, minus, plus⟩ :=
        digit_starts (isdigit_of_mem_padded (k := k) (n := n) b (by simp [start]))
      exact ⟨b, more ++ rest, rfl, minus, plus, List.dropWhile_cons_of_neg (by simp [blank])⟩

/-- A padded numeral is scanned up to its end. -/
theorem scanInt_padded {k n : Nat} (positive : k ≠ 0) (short : k ≤ 9) (fits : n < 10 ^ k) {rest : Bytes}
    (ends : ∀ b ∈ rest.head?, isdigit b = false) :
    scanInt (padded k n ++ rest) = some ((n : Int), rest) := by
  obtain ⟨first, more, start, minus, plus, skipped⟩ := dropWhile_padded (n := n) positive rest
  have unsigned : scanSign (padded k n ++ rest) = (false, padded k n ++ rest) := by
    rw [start]
    unfold scanSign
    split
    · rename_i same
      exact absurd (List.cons.inj same).1 minus
    · rename_i same
      exact absurd (List.cons.inj same).1 plus
    · rfl
  have bound : n < 10 ^ 9 := fits.trans_le (Nat.pow_le_pow_right (by decide) short)
  have value : scanDigits 10 0 (padded k n) = n := by
    rw [scanDigits_ten isdigit_of_mem_padded, decimalFrom_padded fits]
  have nonempty : (padded k n).isEmpty = false := by
    rw [List.isEmpty_eq_false_iff, ← List.length_pos_iff, length_padded]
    omega
  have small : wrapInt (min (n : Int) (2 ^ 63 - 1)) = n := by
    rw [Int.min_eq_left (by omega)]
    exact Int.bmod_eq_of_le (by omega) (by omega)
  unfold scanInt
  rw [skipped, unsigned]
  simp only [takeWhile_padded ends, nonempty, Bool.false_eq_true, if_false, value, small]

section Scan

variable {k n : Nat} (positive : k ≠ 0) (short : k ≤ 9) (fits : n < 10 ^ k) {separator : UInt8}
  (separators : List UInt8)
include positive short fits

/-- Between two numbers stands a byte. -/
theorem sscanf_byte (noDigit : isdigit separator = false) (noBlank : isspace separator = false)
    (rest : Bytes) :
    sscanf (separator :: separators) (padded k n ++ separator :: rest) =
      (n : Int) :: sscanf separators rest := by
  rw [sscanf, scanInt_padded positive short fits (by simpa using noDigit)]
  simp [noBlank]

/-- Between two numbers stands a blank. -/
theorem sscanf_blank {k' n' : Nat} (positive' : k' ≠ 0) (rest : Bytes) :
    sscanf (' '.toUInt8 :: separators) (padded k n ++ ' '.toUInt8 :: (padded k' n' ++ rest)) =
      (n : Int) :: sscanf separators (padded k' n' ++ rest) := by
  obtain ⟨-, -, -, -, -, skipped⟩ := dropWhile_padded (n := n') positive' rest
  have blank : isspace ' '.toUInt8 = true := by decide
  rw [sscanf, scanInt_padded positive short fits (by simp; decide)]
  simp [blank, skipped]

/-- The text ends behind a number. -/
theorem sscanf_end : sscanf separators (padded k n) = [(n : Int)] := by
  have scanned := @scanInt_padded k n positive short fits [] (by simp)
  rw [List.append_nil] at scanned
  have none_ (separators : List UInt8) : sscanf separators [] = [] := by cases separators <;> rfl
  cases separators with
  | nil => rw [sscanf, scanned]
  | cons separator separators =>
      rw [sscanf, scanned]
      simp [none_]

end Scan

namespace Moment

variable (d : Moment)

/-- The fields of a date have at most as many digits as the format gives them. -/
theorem bounds : d.date.year.toNat < 10 ^ 4 ∧ d.date.month < 10 ^ 2 ∧ d.date.day < 10 ^ 2 := by
  have month := d.date.inYear.monthRange
  have day := d.date.inYear.dayRange
  have year := d.yearRange
  have short := daysOfMonth_le (isLeap d.date.year) d.date.month
  omega

/-- The separators of the format. -/
theorem separators : bytes "-- ::" = ['-'.toUInt8, '-'.toUInt8, ' '.toUInt8, ':'.toUInt8, ':'.toUInt8] := by
  decide

/-- A date alone gives three numbers. -/
theorem sscanf_dateText :
    sscanf (bytes "-- ::") d.dateText = [(d.date.year.toNat : Int), (d.date.month : Int),
      (d.date.day : Int)] := by
  obtain ⟨year, month, day⟩ := d.bounds
  rw [separators, dateText, sscanf_byte (by decide) (by decide) year _ (by decide) (by decide),
    sscanf_byte (by decide) (by decide) month _ (by decide) (by decide),
    sscanf_end (by decide) (by decide) day]

/-- A date and a time of day give six. -/
theorem sscanf_text :
    sscanf (bytes "-- ::") d.text =
      [(d.date.year.toNat : Int), (d.date.month : Int), (d.date.day : Int), (d.hour : Int), (d.minute : Int),
        (d.second : Int)] := by
  obtain ⟨year, month, day⟩ := d.bounds
  have hour : d.hour < 10 ^ 2 := by have := d.hourRange; omega
  have minute : d.minute < 10 ^ 2 := by have := d.minuteRange; omega
  have second : d.second < 10 ^ 2 := by have := d.secondRange; omega
  rw [separators, text, dateText, timeText]
  simp only [List.append_assoc, List.cons_append]
  rw [sscanf_byte (by decide) (by decide) year _ (by decide) (by decide),
    sscanf_byte (by decide) (by decide) month _ (by decide) (by decide),
    sscanf_blank (by decide) (by decide) day _ (by decide),
    sscanf_byte (by decide) (by decide) hour _ (by decide) (by decide),
    sscanf_byte (by decide) (by decide) minute _ (by decide) (by decide),
    sscanf_end (by decide) (by decide) second]

/-! ### Printing

`strftime` pads with zeros, so the printed text has the fields that were scanned. -/

/-- A number below 100 is printed with two digits. -/
theorem printTwo_eq {n : Nat} (small : n < 100) : Tm.printTwo n = padded 2 n := by
  unfold Tm.printTwo
  split
  · rename_i one
    have zero : padded 2 n = '0'.toUInt8 :: padded 1 n := by
      have quotient : n / 10 = 0 := by omega
      simp [padded, quotient]
      decide
    by_cases none_ : n = 0
    · subst none_
      decide
    · rw [zero, toDecimal_eq_padded (k := 0) (by omega) (by omega)]
  · exact toDecimal_eq_padded (k := 1) (by omega) (by omega)

/-- A year of four digits is printed with them. -/
theorem printYear_eq {year : Int} (range : 1000 ≤ year ∧ year ≤ 9999) :
    Tm.printYear year = padded 4 year.toNat := by
  obtain ⟨n, rfl⟩ := Int.eq_ofNat_of_zero_le (show 0 ≤ year by omega)
  exact toDecimal_eq_padded (k := 3) (by omega) (by omega)

/-- The members print as the text. -/
theorem str_fields : d.fields.str = d.text := by
  obtain ⟨year, month, day⟩ := d.bounds
  have monthRange := d.date.inYear.monthRange
  have yearRange := d.yearRange
  have hour := d.hourRange
  have minute := d.minuteRange
  have second := d.secondRange
  have small {n : Nat} (bound : n < 10000) : wrapInt n = n := Int.bmod_eq_of_le (by omega) (by omega)
  have small' {z : Int} (low : -10000 < z) (high : z < 10000) : wrapInt z = z :=
    Int.bmod_eq_of_le (by omega) (by omega)
  have printed : Datetime.strftime d.fields.cTm = d.text := by
    simp only [Datetime.strftime, Datetime.cTm, fields]
    rw [small year, small (by omega), small (by omega), small (by omega), small (by omega), small (by omega),
      small' (by omega) (by omega), small' (by omega) (by omega), Int.sub_add_cancel, Int.sub_add_cancel,
      Int.toNat_of_nonneg (by omega), printYear_eq yearRange]
    simp only [Int.toNat_natCast]
    rw [printTwo_eq month, printTwo_eq day, printTwo_eq (by omega), printTwo_eq (by omega),
      printTwo_eq (by omega)]
    simp [text, dateText, timeText, bytes]
  have length : d.text.length = 19 := by simp [text, dateText, timeText]
  rw [Datetime.str, printed]
  simp [length]

/-! ### Seconds

`mktime` gives -1 both for a failure and for the last second before the epoch, and the constructor takes
it for a failure. -/

/-- The seconds since midnight. -/
def secondsOfDay : Int := d.hour * 3600 + d.minute * 60 + d.second

/-- The seconds since the epoch. -/
def seconds : Int := dayNumber d.date * 86400 + d.secondsOfDay

/-- The time of day is less than a day. -/
theorem secondsOfDay_range : 0 ≤ d.secondsOfDay ∧ d.secondsOfDay < 86400 := by
  have hour := d.hourRange
  have minute := d.minuteRange
  have second := d.secondRange
  unfold secondsOfDay
  omega

/-- Only one date has the number that `mktime` fails with. -/
theorem seconds_eq_neg_one_iff : d.seconds = -1 ↔ LastBeforeEpoch d := by
  have range := d.secondsOfDay_range
  have hour := d.hourRange
  have minute := d.minuteRange
  have second := d.secondRange
  have last : dayNumber ⟨1969, 12, 31, by decide⟩ = -1 := by decide +kernel
  have day : dayNumber d.date = -1 ↔ d.date.year = 1969 ∧ d.date.month = 12 ∧ d.date.day = 31 := by
    rw [← last, dayNumber_inj]
    constructor
    · intro same
      rw [same]
      exact ⟨rfl, rfl, rfl⟩
    · rintro ⟨year, month, day⟩
      exact Date.ext year month day
  rw [LastBeforeEpoch, ← day, seconds]
  unfold secondsOfDay at range ⊢
  omega

end Moment

/-- The members of a date and a time of day in their ranges, with the seconds since the epoch that they
    denote. -/
theorem seconds_of_date {tm : StdTm} {date : Date} (year : tm.tmYear = date.year - 1900)
    (month : tm.tmMon = date.month - 1)
    (day : tm.tmMday = date.day) : tm.seconds = dayNumber date * 86400 + tm.secondsOfDay := by
  have monthRange := date.inYear.monthRange
  have dayRange := date.inYear.dayRange
  have years : (tm.tmYear * 12 + tm.tmMon) / 12 + 1900 = date.year := by omega
  have months : ((tm.tmYear * 12 + tm.tmMon) % 12).toNat + 1 = date.month := by omega
  simp only [StdTm.seconds, years, months, dayNumber, StdTm.secondsOfDay, day]
  omega

/-- Members in their ranges become those of a `datetime` unchanged. -/
theorem setTime_eq_iff {date : Date} {second : Int}
    (fits : -2 ^ 31 ≤ date.year - 1900 ∧ date.year - 1900 < 2 ^ 31)
    (range : 0 ≤ second ∧ second < 86400) (isdst : Int) (d : Moment) :
    Datetime.setTime
        { tmSec := second % 60, tmMin := second / 60 % 60, tmHour := second / 3600, tmMday := date.day,
          tmMon := date.month - 1, tmYear := date.year - 1900, tmIsdst := isdst } = d.fields ↔
      date = d.date ∧ second = d.secondsOfDay := by
  have monthRange := date.inYear.monthRange
  have dayRange := date.inYear.dayRange
  have short := daysOfMonth_le (isLeap date.year) date.month
  have monthRange' := d.date.inYear.monthRange
  have year' := d.yearRange
  have hour' := d.hourRange
  have minute' := d.minuteRange
  have second' := d.secondRange
  simp only [Datetime.setTime, Moment.fields, Datetime.mk.injEq, Datetime.toUnsigned, wrapUnsigned,
    Moment.secondsOfDay]
  constructor
  · rintro ⟨year, month, day, hours, minutes, seconds⟩
    exact ⟨Date.ext (by omega) (by omega) (by omega), by omega⟩
  · rintro ⟨rfl, seconds⟩
    refine ⟨?_, ?_, ?_, ?_, ?_, ?_⟩ <;> omega

/-- A time becomes the members of a moment exactly when it is the time of that moment, and none of it is -1.
    -/
theorem converts_iff (tm : StdTm) (d : Moment) :
    (if (mktime tm).1 = -1 then Except.error Datetime.castFailed else .ok (Datetime.setTime (mktime tm).2)) =
        Except.ok d.fields ↔
      tm.seconds = d.seconds ∧ ¬ LastBeforeEpoch d := by
  have range : 0 ≤ tm.seconds % 86400 ∧ tm.seconds % 86400 < 86400 := by omega
  have range' := d.secondsOfDay_range
  have same : ofDayNumber (tm.seconds / 86400) = d.date ∧ tm.seconds % 86400 = d.secondsOfDay ↔
      tm.seconds = d.seconds := by
    have day : ofDayNumber (tm.seconds / 86400) = d.date ↔ tm.seconds / 86400 = dayNumber d.date := by
      constructor
      · intro found
        rw [← found, dayNumber_ofDayNumber]
      · intro found
        rw [found, ofDayNumber_dayNumber]
    rw [day, Moment.seconds]
    omega
  rw [← d.seconds_eq_neg_one_iff]
  by_cases fits : -2 ^ 31 ≤ (ofDayNumber (tm.seconds / 86400)).year - 1900 ∧
      (ofDayNumber (tm.seconds / 86400)).year - 1900 < 2 ^ 31
  · have members := setTime_eq_iff fits range 0 d
    rw [same] at members
    rw [mktime, if_pos fits]
    by_cases failed : tm.seconds = -1
    · rw [if_pos failed]
      refine iff_of_false (by simp) ?_
      rintro ⟨equal, other⟩
      exact other (equal.symm.trans failed)
    · rw [if_neg failed, Except.ok.injEq, members]
      refine ⟨fun equal => ⟨equal, fun last => failed (equal.trans last)⟩, fun both => both.1⟩
  · rw [mktime, if_neg fits, if_pos rfl]
    refine iff_of_false (by simp) ?_
    rintro ⟨equal, -⟩
    have year := (same.mpr equal).1
    have yearRange := d.yearRange
    rw [year] at fits
    omega

/-! ### The law -/

/-- A text without a NUL of at most 19 bytes with three or six numbers is converted. -/
theorem ofString_eq (memory : StdTm) {str : Bytes} {fields : List Int} (short : str.length ≤ 19)
    (noNul : cstr str = str)
    (scanned : sscanf (bytes "-- ::") str = fields) (count : fields.length = 3 ∨ fields.length = 6) :
    Datetime.ofString memory str =
      let tm : StdTm :=
        { tmYear := wrapInt (fields.getD 0 memory.tmYear - 1900)
          tmMon := wrapInt (fields.getD 1 memory.tmMon - 1)
          tmMday := fields.getD 2 memory.tmMday
          tmHour := fields.getD 3 memory.tmHour
          tmMin := fields.getD 4 memory.tmMin
          tmSec := fields.getD 5 memory.tmSec
          tmIsdst := -1 }
      if (mktime tm).1 = -1 then .error Datetime.castFailed else .ok (Datetime.setTime (mktime tm).2) := by
  have counted : ¬ (fields.length ≠ 3 ∧ fields.length ≠ 6) := by omega
  rw [Datetime.ofString, if_neg (by omega), noNul, scanned]
  simp only [counted, if_false]

/-- A padded number has no zero byte. -/
theorem zero_not_mem_padded (k n : Nat) : (0 : UInt8) ∉ padded k n :=
  fun member => absurd (isdigit_of_mem_padded 0 member) (by decide)

/-- The members that the numbers of a date give. -/
theorem scanned_date (date : Date) (range : 1000 ≤ date.year ∧ date.year ≤ 9999) :
    wrapInt ((date.year.toNat : Int) - 1900) = date.year - 1900 ∧
      wrapInt ((date.month : Int) - 1) = date.month - 1 := by
  have month := date.inYear.monthRange
  constructor
  · rw [Int.toNat_of_nonneg (by omega)]
    exact Int.bmod_eq_of_le (by omega) (by omega)
  · exact Int.bmod_eq_of_le (by omega) (by omega)

namespace Moment

variable (d : Moment)

/-- The text of a moment gives its members, unless its time is -1. -/
theorem ofString_text_iff (memory : StdTm) :
    Datetime.ofString memory d.text = .ok d.fields ↔ ¬ LastBeforeEpoch d := by
  have short : d.text.length ≤ 19 := by simp [text, dateText, timeText]
  have noNul : (0 : UInt8) ∉ d.text := by
    simp [text, dateText, timeText, zero_not_mem_padded]
    decide
  obtain ⟨year, month⟩ := scanned_date d.date d.yearRange
  rw [ofString_eq memory short (Paths.cstr_eq_self noNul) d.sscanf_text (Or.inr rfl)]
  dsimp only
  rw [converts_iff, @seconds_of_date _ d.date year month rfl]
  exact and_iff_right rfl

/-- The text of a date gives the beginning of the day when the memory has no seconds of a day. -/
theorem ofString_dateText_iff (memory : StdTm) :
    Datetime.ofString memory d.dateText = .ok d.midnight.fields ↔ memory.secondsOfDay = 0 := by
  have short : d.dateText.length ≤ 19 := by simp [dateText]
  have noNul : (0 : UInt8) ∉ d.dateText := by
    simp [dateText, zero_not_mem_padded]
    decide
  obtain ⟨year, month⟩ := scanned_date d.date d.yearRange
  have other : ¬ LastBeforeEpoch d.midnight := fun last => absurd (show 0 = 23 from last.2.1) (by decide)
  have noon : d.midnight.seconds = dayNumber d.date * 86400 := by simp [seconds, secondsOfDay, midnight]
  rw [ofString_eq memory short (Paths.cstr_eq_self noNul) d.sscanf_dateText (Or.inl rfl)]
  dsimp only
  rw [converts_iff, @seconds_of_date _ d.date year month rfl, noon, and_iff_left other]
  exact add_eq_left

end Moment

/-- A `datetime` prints and parses consistently exactly when the moment is not the last second before the
    epoch and the memory of the constructor's `std::tm` has a time of day of no seconds. -/
theorem datetime_law_iff (d : Moment) (memory : StdTm) :
    PrintsAndParses d memory ↔ ¬ LastBeforeEpoch d ∧ memory.secondsOfDay = 0 := by
  rw [← d.ofString_text_iff memory, ← d.ofString_dateText_iff memory]
  constructor
  · rintro ⟨⟨_, parsed, rfl, -⟩, _, parsed', rfl⟩
    exact ⟨parsed, parsed'⟩
  · rintro ⟨parsed, parsed'⟩
    exact ⟨⟨_, parsed, rfl, d.str_fields⟩, _, parsed', rfl⟩

/-- The last second before the epoch. -/
def lastSecond : Moment where
  date := ⟨1969, 12, 31, by decide⟩
  hour := 23
  minute := 59
  second := 59
  yearRange := by decide
  hourRange := by decide
  minuteRange := by decide
  secondRange := by decide

/-- Members that are all zero but for the hour. -/
def oneOClock : StdTm := ⟨0, 0, 1, 0, 0, 0, 0⟩

/-- The text of the last second before the epoch is refused, and with an hour in memory the text of a date
    does not give its midnight. -/
theorem datetimes_inconsistent :
    ¬ PrintsAndParses lastSecond ⟨0, 0, 0, 0, 0, 0, 0⟩ ∧
      ¬ PrintsAndParses lastSecond.midnight oneOClock := by
  constructor
  · rintro ⟨⟨_, parsed, rfl, -⟩, -⟩
    exact (lastSecond.ofString_text_iff _).mp parsed ⟨⟨rfl, rfl, rfl⟩, rfl, rfl, rfl⟩
  · rintro ⟨-, _, parsed, rfl⟩
    exact absurd ((lastSecond.midnight.ofString_dateText_iff oneOClock).mp parsed) (by decide)

end Waspp
