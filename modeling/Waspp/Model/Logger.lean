/-
Module: Waspp.Model.Logger
Layer: Model
Purpose: The logger.  A call of `write` looks at the time of the last rotation from the caller's thread, and
  posts what is to be done to the logger's own thread, which runs one posted task after the other.  What the
  two do is a call of the logger, so a call of `write` is a program that the steps of other threads may
  come in between.  The files are what the names of the file system lead to.
Imports: Mathlib.Logic.Function.Basic, Waspp.Foundation.CString, Waspp.Foundation.Interaction
Trusted boundary: human-reviewed translation of logger.cpp
Main exports: Tm, Task, Logger, Task.run, LoggerCall, serveLogger, Logger.rotate, Logger.write, Logger.init
Open obligations: none
-/
import Mathlib.Logic.Function.Basic
import Waspp.Foundation.CString
import Waspp.Foundation.Interaction

namespace Waspp

open CString Interaction

/-! ### Times -/

/-- `log_rotation_type`. -/
inductive LogRotationType where
  | everyMinute
  | hourly
  | daily
deriving DecidableEq, Repr

/-- `log_level_type`. -/
inductive LogLevelType where
  | debug
  | info
  | warn
  | error
  | fatal
deriving DecidableEq, Repr

/-- The fields of a `std::tm` that the logger reads, the year counted from 1900 and the month from 0, and its
    seconds. -/
structure Tm where
  tmYear : Int
  tmMon : Nat
  tmMday : Nat
  tmHour : Nat
  tmMin : Nat
  tmSec : Nat
deriving DecidableEq, Repr

namespace Tm

/-- A number as `strftime` prints a year. -/
def printYear : Int → Bytes
  | .ofNat n => toDecimal n
  | .negSucc n => '-'.toUInt8 :: toDecimal (n + 1)

/-- A number as `strftime` prints the other fields, with two digits. -/
def printTwo (n : Nat) : Bytes :=
  if n < 10 then '0'.toUInt8 :: toDecimal n else toDecimal n

variable (tm : Tm)

/-- `%Y-%m-%d`. -/
def date : Bytes :=
  printYear (tm.tmYear + 1900) ++ bytes "-" ++ printTwo (tm.tmMon + 1) ++ bytes "-" ++ printTwo tm.tmMday

/-- What `strftime` prints for the format of a rotation type. -/
def datetime : LogRotationType → Bytes
  | .everyMinute => bytes "." ++ tm.date ++ bytes "_" ++ printTwo tm.tmHour ++ printTwo tm.tmMin
  | .hourly => bytes "." ++ tm.date ++ bytes "_" ++ printTwo tm.tmHour
  | .daily => bytes "." ++ tm.date

/-- The field that `rotate` compares. -/
def compared : LogRotationType → Nat
  | .everyMinute => tm.tmMin
  | .hourly => tm.tmHour
  | .daily => tm.tmMday

end Tm

/-! ### The logger's thread -/

/-- What is posted to the io_service. -/
inductive Task where
  /-- By `file(file)`. -/
  | file (file : Bytes)
  /-- By `init()`. -/
  | settings (level : LogLevelType) (rotation : LogRotationType)
  /-- By `write`. -/
  | message (message : Bytes)
  /-- By `rotate`. -/
  | rotate (fileTo : Bytes)
deriving DecidableEq, Repr

/-- The logger with the tasks that are to be run, and the files. -/
structure Logger where
  file : Bytes := []
  fileCreated : Tm
  level : LogLevelType := .debug
  rotation : LogRotationType := .everyMinute
  /-- Whether the stream is open; it then writes to the end of `file`. -/
  isOpen : Bool := false
  tasks : List Task := []
  files : Bytes → Option Bytes

/-- What a task did. -/
inductive Done where
  | opened
  | set
  | wrote (message : Bytes)
  /-- The stream was not open. -/
  | dropped (message : Bytes)
  /-- The log file has a new name, and there is a new log file. -/
  | archived (fileTo : Bytes)
  /-- There was a file of the new name. -/
  | kept
  /-- `rename` threw. -/
  | threw
deriving DecidableEq, Repr

namespace Logger

/-- `ofstream_.open(file_, app)`. -/
def openFile (s : Logger) : Logger :=
  { s with
    isOpen := true
    files := Function.update s.files s.file (some ((s.files s.file).getD [])) }

/-- `ofstream_ << message << std::endl`. -/
def append (s : Logger) (message : Bytes) : Logger :=
  { s with
    files := Function.update s.files s.file (some ((s.files s.file).getD [] ++ message ++ bytes "\n")) }

end Logger

/-- Run a task at the time `now`. -/
def Task.run (now : Tm) (s : Logger) : Task → Done × Logger
  | .file name => (.opened, { s with file := name, fileCreated := now }.openFile)
  | .settings level rotation => (.set, { s with level := level, rotation := rotation })
  | .message text => if s.isOpen then (.wrote text, s.append text) else (.dropped text, s)
  | .rotate fileTo =>
      if (s.files fileTo).isSome then (.kept, s)
      else
        match s.files s.file with
        | none => (.threw, { s with isOpen := false })
        | some content =>
            (.archived fileTo,
              { s with
                fileCreated := now
                files :=
                  Function.update (Function.update s.files fileTo (some content)) s.file none }.openFile)

/-! ### The threads together -/

/-- What the threads do to the logger. -/
inductive LoggerCall where
  /-- One condition of `rotate`: `rotation_` is the given one and the compared fields differ. -/
  | differs (rotation : LogRotationType) (tm : Tm)
  /-- The name for the log file as it is, from `file_created_`. -/
  | archiveName (rotation : LogRotationType)
  /-- `io_service_.post(task)`. -/
  | post (task : Task)
  /-- The logger's thread runs the first task, if there is one. -/
  | execute (now : Tm)
deriving DecidableEq, Repr

/-- What a call returns. -/
abbrev LoggerReply : LoggerCall → Type
  | .differs .. => Bool
  | .archiveName _ => Bytes
  | .post _ => Unit
  | .execute _ => Option Done

instance : (q : LoggerCall) → DecidableEq (LoggerReply q)
  | .differs .. => inferInstanceAs (DecidableEq Bool)
  | .archiveName _ => inferInstanceAs (DecidableEq Bytes)
  | .post _ => inferInstanceAs (DecidableEq Unit)
  | .execute _ => inferInstanceAs (DecidableEq (Option Done))

/-- The time of a message differs from that of the last rotation in the field of the rotation type. -/
def Logger.differs (s : Logger) (rotation : LogRotationType) (tm : Tm) : Bool :=
  s.rotation = rotation ∧ tm.compared rotation ≠ s.fileCreated.compared rotation

/-- The name that the log file gets. -/
def Logger.archiveName (s : Logger) (rotation : LogRotationType) : Bytes :=
  s.file ++ s.fileCreated.datetime rotation

/-- One call. -/
def serveLogger : (q : LoggerCall) → Logger → LoggerReply q × Logger
  | .differs rotation tm, s => (s.differs rotation tm, s)
  | .archiveName rotation, s => (s.archiveName rotation, s)
  | .post task, s => ((), { s with tasks := s.tasks ++ [task] })
  | .execute now, s =>
      match s.tasks with
      | [] => (none, s)
      | task :: rest =>
          let (done, s) := task.run now { s with tasks := rest }
          (some done, s)

namespace Logger

/-- The rest of `rotate` under one of its conditions. -/
def rotateTo (rotation : LogRotationType) : Program LoggerCall LoggerReply Unit :=
  .call (.archiveName rotation) fun fileTo => .call (.post (.rotate fileTo)) fun _ => .ret ()

/-- `rotate(tm)`. -/
def rotate (tm : Tm) : Program LoggerCall LoggerReply Unit :=
  .call (.differs .everyMinute tm) fun minute : Bool =>
    if minute then rotateTo .everyMinute
    else
      .call (.differs .hourly tm) fun hour : Bool =>
        if hour then rotateTo .hourly
        else
          .call (.differs .daily tm) fun day : Bool =>
            if day then rotateTo .daily else .ret ()

/-- `write(ptime, message)`. -/
def write (tm : Tm) (message : Bytes) : Program LoggerCall LoggerReply Unit :=
  (rotate tm).bind fun _ => .call (.post (.message message)) fun _ => .ret ()

/-- The level of a name in the configuration. -/
def levelOf (logLevel : Bytes) : Option LogLevelType :=
  if logLevel = bytes "debug" then some .debug
  else if logLevel = bytes "info" then some .info
  else if logLevel = bytes "warn" then some .warn
  else if logLevel = bytes "error" then some .error
  else none

/-- The rotation type of a name in the configuration. -/
def rotationOf (logRotation : Bytes) : Option LogRotationType :=
  if logRotation = bytes "every_minute" then some .everyMinute
  else if logRotation = bytes "hourly" then some .hourly
  else if logRotation = bytes "daily" then some .daily
  else none

/-- `init()`, on the two names of the configuration. -/
def init (logLevel logRotation : Bytes) : Program LoggerCall LoggerReply Bool :=
  match levelOf logLevel, rotationOf logRotation with
  | some level, some rotation => .call (.post (.settings level rotation)) fun _ => .ret true
  | _, _ => .ret false

end Logger

end Waspp
