/-!
# Dates and times of day

Dates of the Gregorian calendar, extended to all years of a fixed range, and times of day to the
second. A minute may have a sixtieth second, as leap seconds do. Moments are also counted in
seconds from the start of 1970, leap seconds left out.
-/

namespace FilterChain.Calendar

def minYear : Int := -262143

def maxYear : Int := 262142

def isLeapYear (year : Int) : Bool :=
  year % 4 == 0 && (year % 100 != 0 || year % 400 == 0)

def daysInMonth (year : Int) (month : Nat) : Nat :=
  if month = 2 then if isLeapYear year then 29 else 28
  else if month = 4 ∨ month = 6 ∨ month = 9 ∨ month = 11 then 30
  else 31

structure Date where
  year : Int
  month : Nat
  day : Nat
  deriving DecidableEq, Repr

structure Time where
  hour : Nat
  minute : Nat
  second : Nat
  deriving DecidableEq, Repr

structure DateTime where
  date : Date
  time : Time
  deriving DecidableEq, Repr

def Time.midnight : Time :=
  ⟨0, 0, 0⟩

namespace Date

def IsValid (date : Date) : Prop :=
  minYear ≤ date.year ∧ date.year ≤ maxYear ∧ 1 ≤ date.month ∧ date.month ≤ 12 ∧
    1 ≤ date.day ∧ date.day ≤ daysInMonth date.year date.month

instance (date : Date) : Decidable date.IsValid :=
  inferInstanceAs (Decidable (_ ∧ _))

/-- Days from the first of January 1970. Years are counted from March, so that the leap day is
the last of its year, and every four centuries have 146097 days. -/
def dayNumber (date : Date) : Int :=
  let year := if date.month ≤ 2 then date.year - 1 else date.year
  let monthFromMarch : Int := (date.month + 9) % 12
  let dayOfYear := (153 * monthFromMarch + 2) / 5 + date.day - 1
  365 * year + year / 4 - year / 100 + year / 400 + dayOfYear - 719468

def ofDayNumber (n : Int) : Date :=
  let z := n + 719468
  let era := z / 146097
  let dayOfEra := z % 146097
  let yearOfEra := (dayOfEra - dayOfEra / 1460 + dayOfEra / 36524 - dayOfEra / 146096) / 365
  let dayOfYear := dayOfEra - (365 * yearOfEra + yearOfEra / 4 - yearOfEra / 100)
  let monthFromMarch := (5 * dayOfYear + 2) / 153
  let day := dayOfYear - (153 * monthFromMarch + 2) / 5 + 1
  let month := if monthFromMarch < 10 then monthFromMarch + 3 else monthFromMarch - 9
  let year := yearOfEra + 400 * era
  ⟨if month ≤ 2 then year + 1 else year, month.toNat, day.toNat⟩

/-- The day of the week, from zero for Monday. -/
def weekday (date : Date) : Nat :=
  ((date.dayNumber + 3) % 7).toNat

end Date

namespace DateTime

/-- Seconds from the start of 1970. A leap second counts as the one before it. -/
def timestamp (t : DateTime) : Int :=
  t.date.dayNumber * 86400 + t.time.hour * 3600 + t.time.minute * 60 + min t.time.second 59

def ofTimestamp (seconds : Int) : DateTime :=
  let rest := (seconds % 86400).toNat
  ⟨Date.ofDayNumber (seconds / 86400), ⟨rest / 3600, rest / 60 % 60, rest % 60⟩⟩

end DateTime

def monthNames : List String :=
  ["January", "February", "March", "April", "May", "June", "July", "August", "September",
    "October", "November", "December"]

def weekdayNames : List String :=
  ["Monday", "Tuesday", "Wednesday", "Thursday", "Friday", "Saturday", "Sunday"]

end FilterChain.Calendar
