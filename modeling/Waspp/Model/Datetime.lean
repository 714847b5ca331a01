/-
Module: Waspp.Model.Datetime
Layer: Model
Purpose: `mysqlpp::datetime`: a time as MySQL stores it, constructed from a text with `sscanf` and `mktime`
  and printed with `strftime`.  Local time is UTC.  The `std::tm` of the constructor is not initialised, so
  the memory in which it lies is an argument.
Imports: Waspp.Foundation.Calendar, Waspp.Model.Logger, Waspp.Model.Utility
Trusted boundary: human-reviewed translation of mysqlpp.hpp, and definitions of documented library functions
Main exports: StdTm, mktime, sscanf, Datetime, Datetime.setTime, Datetime.ofString, Datetime.str
Open obligations: none
-/
import Waspp.Foundation.Calendar
import Waspp.Model.Logger
import Waspp.Model.Utility

namespace Waspp

open CString Calendar

/-- A `std::tm`, without the days of the week and of the year, which nothing reads. -/
structure StdTm where
  tmSec : Int
  tmMin : Int
  tmHour : Int
  tmMday : Int
  tmMon : Int
  tmYear : Int
  tmIsdst : Int
deriving DecidableEq, Repr

/-- The seconds from the epoch to a broken-down time, whose members may be outside their ranges. -/
def StdTm.seconds (tm : StdTm) : Int :=
  let months := tm.tmYear * 12 + tm.tmMon
  let year := months / 12 + 1900
  let days := daysBeforeYear year + daysBeforeMonth (isLeap year) ((months % 12).toNat + 1) + (tm.tmMday - 1)
  days * 86400 + tm.tmHour * 3600 + tm.tmMin * 60 + tm.tmSec

/-- `mktime(&tm)`: the time, and the members in their ranges.  A year that no `int` holds is an error. -/
def mktime (tm : StdTm) : Int × StdTm :=
  let date := ofDayNumber (tm.seconds / 86400)
  let second := tm.seconds % 86400
  if -2 ^ 31 ≤ date.year - 1900 ∧ date.year - 1900 < 2 ^ 31 then
    (tm.seconds,
      { tmSec := second % 60
        tmMin := second / 60 % 60
        tmHour := second / 3600
        tmMday := date.day
        tmMon := date.month - 1
        tmYear := date.year - 1900
        tmIsdst := 0 })
  else (-1, tm)

/-! ### Scanning -/

/-- Whether a minus sign is in front, and the text behind the sign. -/
def scanSign : Bytes → Bool × Bytes
  | 45 :: rest => (true, rest)
  | 43 :: rest => (false, rest)
  | rest => (false, rest)

/-- `%d`: a number behind blanks and a sign, and the text behind it.  The number is read as a `long`. -/
def scanInt (s : Bytes) : Option (Int × Bytes) :=
  let (negative, s) := scanSign (s.dropWhile isspace)
  let digits := s.takeWhile isdigit
  if digits.isEmpty then none
  else
    let magnitude : Int := scanDigits 10 0 digits
    let value := if negative then max (-magnitude) (-2 ^ 63) else min magnitude (2 ^ 63 - 1)
    some (wrapInt value, s.dropWhile isdigit)

/-- The numbers that `sscanf` assigns for a format of `%d`s with these bytes between them; a blank stands for
    any number of them. -/
def sscanf : List UInt8 → Bytes → List Int
  | [], s =>
      match scanInt s with
      | none => []
      | some (value, _) => [value]
  | separator :: separators, s =>
      match scanInt s with
      | none => []
      | some (value, rest) =>
          if isspace separator then value :: sscanf separators (rest.dropWhile isspace)
          else
            match rest with
            | [] => [value]
            | b :: rest => if b == separator then value :: sscanf separators rest else [value]

/-! ### Datetimes -/

/-- The members of a `st_mysql_time` that a `datetime` sets. -/
structure Datetime where
  year : Nat
  month : Nat
  day : Nat
  hour : Nat
  minute : Nat
  second : Nat
deriving DecidableEq, Repr

namespace Datetime

/-- `static_cast<unsigned int>`. -/
def toUnsigned (z : Int) : Nat := (z % 2 ^ 32).toNat

/-- `set_time(tm_)`. -/
def setTime (tm : StdTm) : Datetime where
  year := wrapUnsigned (toUnsigned tm.tmYear + 1900)
  month := wrapUnsigned (toUnsigned tm.tmMon + 1)
  day := toUnsigned tm.tmMday
  hour := toUnsigned tm.tmHour
  minute := toUnsigned tm.tmMin
  second := toUnsigned tm.tmSec

/-- What the constructor throws; the file and the line in front of it are left out. -/
def castFailed : Fault := .thrown (.runtimeError (bytes "datetime cast failed"))

/-- `datetime(str)`, where `memory` is what lies in the memory of `tm_`. -/
def ofString (memory : StdTm) (str : Bytes) : Except Fault Datetime :=
  if str.length > 19 then .error castFailed
  else
    let fields := sscanf (bytes "-- ::") (cstr str)
    if fields.length ≠ 3 ∧ fields.length ≠ 6 then .error castFailed
    else
      let tm : StdTm :=
        { tmYear := wrapInt (fields.getD 0 memory.tmYear - 1900)
          tmMon := wrapInt (fields.getD 1 memory.tmMon - 1)
          tmMday := fields.getD 2 memory.tmMday
          tmHour := fields.getD 3 memory.tmHour
          tmMin := fields.getD 4 memory.tmMin
          tmSec := fields.getD 5 memory.tmSec
          tmIsdst := -1 }
      let (time, tm) := mktime tm
      if time = -1 then .error castFailed else .ok (setTime tm)

/-- `c_tm()`. -/
def cTm (time : Datetime) : StdTm where
  tmYear := wrapInt (wrapInt time.year - 1900)
  tmMon := wrapInt (wrapInt time.month - 1)
  tmMday := wrapInt time.day
  tmHour := wrapInt time.hour
  tmMin := wrapInt time.minute
  tmSec := wrapInt time.second
  tmIsdst := -1

/-- What `strftime` prints for `%Y-%m-%d %H:%M:%S`. -/
def strftime (tm : StdTm) : Bytes :=
  Tm.printYear (tm.tmYear + 1900) ++ bytes "-" ++ Tm.printTwo (tm.tmMon + 1).toNat ++ bytes "-" ++
    Tm.printTwo tm.tmMday.toNat ++ bytes " " ++ Tm.printTwo tm.tmHour.toNat ++ bytes ":" ++
    Tm.printTwo tm.tmMin.toNat ++ bytes ":" ++ Tm.printTwo tm.tmSec.toNat

/-- `str()`.  A text that does not fit into `buf` leaves it as it was. -/
def str (time : Datetime) : Bytes :=
  let text := strftime time.cTm
  if text.length < 32 then text else []

end Datetime

end Waspp
