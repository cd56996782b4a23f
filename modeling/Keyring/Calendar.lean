import Keyring.Decimal.Text
/-!
# Dates and times

A `Date` is a day of the Gregorian calendar, a `DateTime` a time of such a day, with microseconds
and an optional distance from universal time. `Date.check` and `DateTime.check` name the first
field out of range. Each kind has two texts, the usual one of digits (`isoText`) and one that
spells the value out (`spelled`).
-/

namespace Keyring

open Decimal (padded)

/-- A day of the calendar. -/
structure Date where
  year : Nat
  month : Nat
  day : Nat
  deriving DecidableEq, Repr

/-- A time of a day; `offset?` is how many seconds the clock is ahead of universal time. -/
structure DateTime where
  date : Date
  hour : Nat
  minute : Nat
  second : Nat
  microsecond : Nat
  offset? : Option Int
  deriving DecidableEq, Repr

/-- A field of a date or time that is out of range. -/
inductive CalendarFlaw where
  | year (value : Nat)
  | month
  | day
  | hour
  | minute
  | second
  /-- The distance from universal time is a day or more. -/
  | offset (seconds : Int)
  deriving DecidableEq, Repr

namespace Calendar

def isLeap (year : Nat) : Bool :=
  year % 4 = 0 && (year % 100 ≠ 0 || year % 400 = 0)

def daysInMonth (year month : Nat) : Nat :=
  if month = 2 then if isLeap year then 29 else 28
  else if month = 4 || month = 6 || month = 9 || month = 11 then 30
  else 31

/-- Days before the first of January of the year. -/
def daysBeforeYear (year : Nat) : Nat :=
  let y := year - 1
  y * 365 + y / 4 - y / 100 + y / 400

/-- Days of the year before the first of the month. -/
def daysBeforeMonth (year month : Nat) : Nat :=
  (List.range (month - 1)).foldl (fun n m => n + daysInMonth year (m + 1)) 0

/-- A distance in seconds as whole days and the seconds that remain. -/
def spelledDuration (seconds : Int) : String :=
  let days := seconds.fdiv 86400
  let rest := seconds.fmod 86400
  let fields :=
    (if days = 0 then [] else ["days=" ++ toString days]) ++
    (if rest = 0 then [] else ["seconds=" ++ toString rest])
  "datetime.timedelta(" ++ (if fields.isEmpty then "0" else ", ".intercalate fields) ++ ")"

/-- How a distance from universal time is spelled. -/
def spelledZone (offset : Int) : String :=
  if offset = 0 then "datetime.timezone.utc"
  else "datetime.timezone(" ++ spelledDuration offset ++ ")"

/-- A sign, hours and minutes. -/
def offsetText (offset : Int) : String :=
  let minutes := offset.natAbs / 60
  String.ofList
    ((if offset < 0 then '-' else '+') :: padded 2 (minutes / 60) ++ ':' :: padded 2 (minutes % 60))

end Calendar

open Calendar

/-- The first field of a date that is out of range. -/
def Date.check (d : Date) : Except CalendarFlaw Date :=
  if d.year = 0 || 9999 < d.year then .error (.year d.year)
  else if d.month = 0 || 12 < d.month then .error .month
  else if d.day = 0 || daysInMonth d.year d.month < d.day then .error .day
  else .ok d

/-- The number of the day, counted from the first of January of the year 1. -/
def Date.ordinal (d : Date) : Nat :=
  daysBeforeYear d.year + daysBeforeMonth d.year d.month + d.day

def Date.isoText (d : Date) : String :=
  String.ofList (padded 4 d.year ++ '-' :: padded 2 d.month ++ '-' :: padded 2 d.day)

def Date.spelled (d : Date) : String :=
  "datetime.date(" ++ ", ".intercalate ([d.year, d.month, d.day].map toString) ++ ")"

/-- The first field of a time that is out of range, those of the date first. -/
def DateTime.check (t : DateTime) : Except CalendarFlaw DateTime := do
  let _ ← t.date.check
  if 23 < t.hour then .error .hour
  else if 59 < t.minute then .error .minute
  else if 59 < t.second then .error .second
  else .ok t

/-- Microseconds since the first day began, by the clock's own time. -/
def DateTime.clock (t : DateTime) : Int :=
  (((t.date.ordinal * 24 + t.hour) * 60 + t.minute) * 60 + t.second) * 1000000 + t.microsecond

/-- Whether two times are the same: both without a distance from universal time and equal in every
field, or both with one and the same instant. -/
def DateTime.same (t u : DateTime) : Bool :=
  match t.offset?, u.offset? with
  | none, none => t.clock = u.clock
  | some a, some b => t.clock - a * 1000000 = u.clock - b * 1000000
  | _, _ => false

def DateTime.isoText (t : DateTime) : String :=
  t.date.isoText ++
    String.ofList (' ' :: padded 2 t.hour ++ ':' :: padded 2 t.minute ++ ':' :: padded 2 t.second ++
      if t.microsecond = 0 then [] else '.' :: padded 6 t.microsecond) ++
    (t.offset?.map offsetText).getD ""

def DateTime.spelled (t : DateTime) : String :=
  let small :=
    if t.microsecond = 0 then if t.second = 0 then [] else [t.second]
    else [t.second, t.microsecond]
  let fields := [t.date.year, t.date.month, t.date.day, t.hour, t.minute] ++ small
  "datetime.datetime(" ++ ", ".intercalate (fields.map toString) ++
    ((t.offset?.map fun z => ", tzinfo=" ++ spelledZone z).getD "") ++ ")"

/-- What is wrong, in words. -/
def CalendarFlaw.message : CalendarFlaw → String
  | .year value => "year " ++ toString value ++ " is out of range"
  | .month => "month must be in 1..12"
  | .day => "day is out of range for month"
  | .hour => "hour must be in 0..23"
  | .minute => "minute must be in 0..59"
  | .second => "second must be in 0..59"
  | .offset seconds =>
    "offset must be a timedelta strictly between -timedelta(hours=24) and timedelta(hours=24), not "
      ++ spelledDuration seconds ++ "."

end Keyring
