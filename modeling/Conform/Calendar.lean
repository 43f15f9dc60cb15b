import Conform.Text.Digit

/-!
Dates and timestamps of the proleptic Gregorian calendar, years 1 to 9999, to the microsecond. A
timestamp may carry an offset from universal time; two timestamps with offsets are the same when they
name the same instant, and one without an offset is never the same as one with.
-/
namespace Conform

structure Date where
  year : Nat
  month : Nat
  day : Nat
deriving DecidableEq, Repr

structure Timestamp where
  date : Date
  hour : Nat
  minute : Nat
  second : Nat
  microsecond : Nat
  /-- Seconds east of universal time. -/
  offset : Option Int
deriving DecidableEq, Repr

namespace Calendar

/-- Why a date or a timestamp is refused. -/
inductive Error
  | year (n : Nat)
  | month
  | day
  | hour
  | minute
  | second
  /-- An offset is less than a day; `seconds` is the one refused. -/
  | offset (seconds : Int)
deriving DecidableEq, Repr

/-- A span of time as days and a non-negative number of seconds. -/
def spanText (seconds : Int) : String :=
  let days := seconds.fdiv 86400
  let rest := seconds.fmod 86400
  let parts :=
    (if days = 0 then [] else [s!"days={days}"]) ++ (if rest = 0 then [] else [s!"seconds={rest}"])
  "datetime.timedelta(" ++ (if parts.isEmpty then "0" else ", ".intercalate parts) ++ ")"

def Error.message : Error → String
  | .year n => s!"year {n} is out of range"
  | .month => "month must be in 1..12"
  | .day => "day is out of range for month"
  | .hour => "hour must be in 0..23"
  | .minute => "minute must be in 0..59"
  | .second => "second must be in 0..59"
  | .offset seconds =>
    "offset must be a timedelta strictly between -timedelta(hours=24) and timedelta(hours=24), not "
      ++ spanText seconds ++ "."

def isLeap (year : Nat) : Bool := year % 4 = 0 && (year % 100 ≠ 0 || year % 400 = 0)

def daysInMonth (year month : Nat) : Nat :=
  if month = 2 then (if isLeap year then 29 else 28)
  else if month = 4 || month = 6 || month = 9 || month = 11 then 30
  else 31

end Calendar

open Calendar

/-- Checks year, month and day, in this order. -/
def Date.make (year month day : Nat) : Except Calendar.Error Date :=
  if year = 0 || year > 9999 then .error (.year year)
  else if month = 0 || month > 12 then .error .month
  else if day = 0 || day > daysInMonth year month then .error .day
  else .ok ⟨year, month, day⟩

/-- Days since the first of January of year 1. -/
def Date.ordinal (d : Date) : Nat :=
  let y := d.year - 1
  let months := (List.range (d.month - 1)).map fun m => daysInMonth d.year (m + 1)
  y * 365 + y / 4 - y / 100 + y / 400 + months.foldl (· + ·) 0 + (d.day - 1)

def Date.isoText (d : Date) : String :=
  String.ofList (Text.digitsOf 10 4 d.year ++ '-' :: Text.digitsOf 10 2 d.month
    ++ '-' :: Text.digitsOf 10 2 d.day)

namespace Timestamp

/-- Checks the offset, then the date, then the time of day. -/
def make (year month day hour minute second microsecond : Nat) (offset : Option Int) :
    Except Calendar.Error Timestamp := do
  if let some s := offset then
    if s.natAbs ≥ 86400 then throw (.offset s)
  let date ← Date.make year month day
  if hour > 23 then throw .hour
  if minute > 59 then throw .minute
  if second > 59 then throw .second
  return ⟨date, hour, minute, second, microsecond, offset⟩

/-- Microseconds since the start of year 1, by the clock that the timestamp shows. -/
def clock (t : Timestamp) : Int :=
  (((t.date.ordinal * 24 + t.hour) * 60 + t.minute) * 60 + t.second : Nat) * 1000000 + t.microsecond

/-- Microseconds since the start of year 1 in universal time, for a timestamp with an offset. -/
def instant? (t : Timestamp) : Option Int := t.offset.map fun s => t.clock - s * 1000000

/-- An offset as a sign, hours and minutes, and seconds unless they are zero. -/
def offsetText (s : Int) : List Char :=
  let n := s.natAbs
  (if s < 0 then '-' else '+') :: Text.digitsOf 10 2 (n / 3600) ++ ':' :: Text.digitsOf 10 2 (n / 60 % 60)
    ++ (if n % 60 = 0 then [] else ':' :: Text.digitsOf 10 2 (n % 60))

/-- Date and time joined by `separator`; a fraction and an offset only if there is one. -/
def isoText (separator : Char) (t : Timestamp) : String :=
  t.date.isoText ++ String.ofList (separator :: Text.digitsOf 10 2 t.hour
    ++ ':' :: Text.digitsOf 10 2 t.minute ++ ':' :: Text.digitsOf 10 2 t.second
    ++ (if t.microsecond = 0 then [] else '.' :: Text.digitsOf 10 6 t.microsecond)
    ++ (t.offset.map offsetText).getD [])

end Timestamp

/-- A date as it is shown inside a quoted value. -/
def Date.quoted (d : Date) : String := s!"datetime.date({d.year}, {d.month}, {d.day})"

/-- The offset of a timestamp as it is shown inside a quoted value. -/
def Calendar.zoneQuoted (seconds : Int) : String :=
  if seconds = 0 then "datetime.timezone.utc" else "datetime.timezone(" ++ spanText seconds ++ ")"

/-- A timestamp as it is shown inside a quoted value: trailing zero seconds and microseconds are left
out. -/
def Timestamp.quoted (t : Timestamp) : String :=
  let fields := [t.date.year, t.date.month, t.date.day, t.hour, t.minute]
    ++ (if t.microsecond ≠ 0 then [t.second, t.microsecond]
      else if t.second ≠ 0 then [t.second] else [])
  let zone := t.offset.map fun s => s!"tzinfo={Calendar.zoneQuoted s}"
  "datetime.datetime(" ++ ", ".intercalate (fields.map toString ++ zone.toList) ++ ")"

end Conform
