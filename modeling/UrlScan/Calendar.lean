import UrlScan.Text.Basic

/-!
# Dates and moments

A date of the Gregorian calendar, and a moment: a date with a time of day and, when it is known, the
offset of that time from universal time. A date and a moment are made from their parts, and the
first part out of range is the fault.
-/

namespace UrlScan

/-- Why parts make no date or moment. -/
inductive CalendarFault
  | year (n : Nat)
  | month
  | day
  | hour
  | minute
  | second
  /-- The offset, in minutes, is a day or more. -/
  | offset (minutes : Int)
deriving DecidableEq, Repr

namespace Calendar

def isLeap (year : Nat) : Bool :=
  year % 4 == 0 && (year % 100 != 0 || year % 400 == 0)

def daysIn (year month : Nat) : Nat :=
  if month = 2 then (if isLeap year then 29 else 28)
  else if month = 4 || month = 6 || month = 9 || month = 11 then 30
  else 31

def dayMinutes : Int := 1440

/-- A number with leading zeros, at least `width` digits wide. -/
def padded (width n : Nat) : Text :=
  let digits := Text.ofNat n
  List.replicate (width - digits.length) '0' ++ digits

/-- A span of minutes in whole days and the seconds above them, as it is shown among others. -/
def spanText (minutes : Int) : Text :=
  let days := minutes.fdiv dayMinutes
  let seconds := 60 * minutes.fmod dayMinutes
  let parts :=
    (if days = 0 then [] else ["days=".toList ++ Text.decimal days])
      ++ (if seconds = 0 then [] else ["seconds=".toList ++ Text.decimal seconds])
  "datetime.timedelta(".toList
    ++ (if parts.isEmpty then ['0'] else Text.join [',', ' '] parts) ++ [')']

end Calendar

def CalendarFault.message : CalendarFault → String
  | year n => "year " ++ toString n ++ " is out of range"
  | month => "month must be in 1..12"
  | day => "day is out of range for month"
  | hour => "hour must be in 0..23"
  | minute => "minute must be in 0..59"
  | second => "second must be in 0..59"
  | offset minutes =>
    "offset must be a timedelta strictly between -timedelta(hours=24) and timedelta(hours=24), not "
      ++ String.ofList (Calendar.spanText minutes) ++ "."

structure Date where
  year : Nat
  month : Nat
  day : Nat
  year_pos : 1 ≤ year
  month_pos : 1 ≤ month
  month_le : month ≤ 12
  day_pos : 1 ≤ day
  day_le : day ≤ Calendar.daysIn year month
deriving DecidableEq, Repr

namespace Date

/-- The date of a year, a month and a day. -/
def ofParts (year month day : Nat) : Except CalendarFault Date :=
  if year_pos : 1 ≤ year then
    if month_valid : 1 ≤ month ∧ month ≤ 12 then
      if day_valid : 1 ≤ day ∧ day ≤ Calendar.daysIn year month then
        .ok ⟨year, month, day, year_pos, month_valid.1, month_valid.2, day_valid.1, day_valid.2⟩
      else .error .day
    else .error .month
  else .error (.year year)

/-- The number of days from the first day of the year one. -/
def dayNumber (d : Date) : Nat :=
  let years := d.year - 1
  let inMonths :=
    (List.range (d.month - 1)).foldl (fun sum m => sum + Calendar.daysIn d.year (m + 1)) 0
  365 * years + years / 4 - years / 100 + years / 400 + inMonths + (d.day - 1)

def display (d : Date) : Text :=
  Calendar.padded 4 d.year ++ '-' :: Calendar.padded 2 d.month ++ '-' :: Calendar.padded 2 d.day

def parts (d : Date) : List Text :=
  [d.year, d.month, d.day].map Text.ofNat

/-- A date as it is shown among others. -/
def displayInside (d : Date) : Text :=
  "datetime.date(".toList ++ Text.join [',', ' '] d.parts ++ [')']

end Date

structure Moment where
  date : Date
  hour : Nat
  minute : Nat
  second : Nat
  microsecond : Nat
  /-- The offset from universal time in minutes. -/
  offset : Option Int
  hour_lt : hour < 24
  minute_lt : minute < 60
  second_lt : second < 60
deriving DecidableEq, Repr

namespace Moment

def checkOffset : Option Int → Except CalendarFault Unit
  | none => .ok ()
  | some minutes =>
    if minutes.natAbs < 1440 then .ok () else .error (.offset minutes)

/-- The moment of a date given by its parts and of a time. -/
def ofParts (year month day hour minute second microsecond : Nat) (offset : Option Int) :
    Except CalendarFault Moment := do
  checkOffset offset
  let date ← Date.ofParts year month day
  if hour_lt : hour < 24 then
    if minute_lt : minute < 60 then
      if second_lt : second < 60 then
        .ok ⟨date, hour, minute, second, microsecond, offset, hour_lt, minute_lt, second_lt⟩
      else .error .second
    else .error .minute
  else .error .hour

/-- The minutes from the beginning of the year one, in universal time when the offset is known. -/
def minuteNumber (m : Moment) : Int :=
  Calendar.dayMinutes * m.date.dayNumber + 60 * m.hour + m.minute - m.offset.getD 0

/-- Whether two moments are the same: their offsets are both known or both unknown, and they are the
same in universal time. -/
def same (a b : Moment) : Bool :=
  a.offset.isSome == b.offset.isSome && a.minuteNumber == b.minuteNumber
    && a.second == b.second && a.microsecond == b.microsecond

/-- The offset from universal time as it is shown: a sign, hours and minutes. -/
def offsetText (minutes : Int) : Text :=
  (if minutes < 0 then '-' else '+') :: Calendar.padded 2 (minutes.natAbs / 60)
    ++ ':' :: Calendar.padded 2 (minutes.natAbs % 60)

/-- A moment as it is shown. -/
def display (m : Moment) : Text :=
  let time := [m.hour, m.minute, m.second].map (Calendar.padded 2)
  let fraction := if m.microsecond = 0 then [] else '.' :: Calendar.padded 6 m.microsecond
  m.date.display ++ ' ' :: Text.join [':'] time ++ fraction
    ++ ((m.offset.map offsetText).getD [])

/-- The offset from universal time as it is shown among others. -/
def zoneText (minutes : Int) : Text :=
  if minutes = 0 then "datetime.timezone.utc".toList
  else "datetime.timezone(".toList ++ Calendar.spanText minutes ++ [')']

/-- A moment as it is shown among others: seconds are left out when they are zero. -/
def displayInside (m : Moment) : Text :=
  let seconds :=
    if m.microsecond ≠ 0 then [m.second, m.microsecond]
    else if m.second ≠ 0 then [m.second]
    else []
  let zone := (m.offset.map fun minutes => "tzinfo=".toList ++ zoneText minutes).toList
  "datetime.datetime(".toList
    ++ Text.join [',', ' '] (m.date.parts ++ ([m.hour, m.minute] ++ seconds).map Text.ofNat ++ zone)
    ++ [')']

end Moment

end UrlScan
