/-!
# Calendar

Dates of the proleptic Gregorian calendar, counted in days from 1970-01-01, and
times of day in whole seconds, with room for a leap second. All times are UTC.
-/

set_option autoImplicit false

namespace WebClient

/-- A day of the calendar. Months and days count from one. -/
structure Date where
  year : Int
  month : Nat
  day : Nat
  deriving DecidableEq, Repr

namespace Date

/-- Leap years are the multiples of four but not of a hundred, and the multiples
of four hundred. -/
def isLeapYear (year : Int) : Bool :=
  year % 4 = 0 && (year % 100 ≠ 0 || year % 400 = 0)

def daysInMonth (year : Int) (month : Nat) : Nat :=
  if month = 2 then (if isLeapYear year then 29 else 28)
  else if month = 4 ∨ month = 6 ∨ month = 9 ∨ month = 11 then 30
  else 31

def inRange (year : Int) : Bool :=
  -262143 ≤ year && year ≤ 262142

def IsValid (date : Date) : Prop :=
  inRange date.year ∧ 1 ≤ date.month ∧ date.month ≤ 12 ∧
    1 ≤ date.day ∧ date.day ≤ daysInMonth date.year date.month

instance (date : Date) : Decidable date.IsValid := by
  unfold IsValid; infer_instance

/-- Days from 1970-01-01 to the date. Years are taken to start in March, so that
the leap day is the last day of a year. -/
def toDays (date : Date) : Int :=
  let year := if date.month ≤ 2 then date.year - 1 else date.year
  let month : Int := if date.month ≤ 2 then date.month + 9 else date.month - 3
  let era := year / 400
  let ofEra := year % 400
  let ofYear := (153 * month + 2) / 5 + date.day - 1
  era * 146097 + ofEra * 365 + ofEra / 4 - ofEra / 100 + ofYear - 719468

def ofDays (days : Int) : Date :=
  let shifted := days + 719468
  let era := shifted / 146097
  let dayOfEra := shifted % 146097
  let yearOfEra := (dayOfEra - dayOfEra / 1460 + dayOfEra / 36524 - dayOfEra / 146096) / 365
  let dayOfYear := dayOfEra - (365 * yearOfEra + yearOfEra / 4 - yearOfEra / 100)
  let month := (5 * dayOfYear + 2) / 153
  let year := yearOfEra + era * 400
  { year := if month < 10 then year else year + 1
    month := (if month < 10 then month + 3 else month - 9).toNat
    day := (dayOfYear - (153 * month + 2) / 5 + 1).toNat }

/-- The day of the week, Sunday being zero. -/
def weekday (date : Date) : Nat :=
  ((date.toDays + 4) % 7).toNat

end Date

/-- A second of UTC. The second 60 is a leap second. -/
structure DateTime where
  date : Date
  hour : Nat
  minute : Nat
  second : Nat
  deriving DecidableEq, Repr

namespace DateTime

def IsValid (time : DateTime) : Prop :=
  time.date.IsValid ∧ time.hour ≤ 23 ∧ time.minute ≤ 59 ∧ time.second ≤ 60

instance (time : DateTime) : Decidable time.IsValid := by
  unfold IsValid; infer_instance

/-- Seconds from 1970-01-01 00:00:00. A leap second counts as the second before it. -/
def toUnix (time : DateTime) : Int :=
  time.date.toDays * 86400 + time.hour * 3600 + time.minute * 60 + min time.second 59

def ofUnix (seconds : Int) : DateTime :=
  let ofDay := (seconds % 86400).toNat
  { date := Date.ofDays (seconds / 86400)
    hour := ofDay / 3600
    minute := ofDay / 60 % 60
    second := ofDay % 60 }

/-- The second that lies so many seconds after 1970-01-01 00:00:00, if its year is
one in which dates are kept. -/
def ofUnix? (seconds : Int) : Option DateTime :=
  let time := ofUnix seconds
  if Date.inRange time.date.year then some time else none

/-- Whether the time lies at or before a count of seconds. A leap second lies
after the second it is counted as. -/
def isPast (time : DateTime) (now : Int) : Bool :=
  if time.second = 60 then time.toUnix < now else time.toUnix ≤ now

end DateTime

end WebClient
