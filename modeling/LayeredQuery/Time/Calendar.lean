/-!
# Calendar dates

Dates of the Gregorian calendar, extended to all years. Days are counted from 1 March of year 0:
a year that starts in March ends with its leap day, so the months keep fixed lengths and the
length of a year matters only at its end. Four hundred years always have 146097 days.
-/

set_option autoImplicit false

namespace LayeredQuery.Time

structure Date where
  year : Int
  month : Nat
  day : Nat
deriving DecidableEq

def isLeapYear (year : Int) : Bool :=
  year % 4 = 0 && (year % 100 ≠ 0 || year % 400 = 0)

def monthLength (year : Int) (month : Nat) : Nat :=
  if month = 2 then (if isLeapYear year then 29 else 28)
  else if month = 4 ∨ month = 6 ∨ month = 9 ∨ month = 11 then 30
  else 31

namespace Date

def isValid (date : Date) : Bool :=
  1 ≤ date.month && date.month ≤ 12 && 1 ≤ date.day
    && date.day ≤ monthLength date.year date.month

/-- The number of the month counted from March, and the year it belongs to when years start in
March. -/
def marchYear (date : Date) : Int × Nat :=
  if date.month ≤ 2 then (date.year - 1, date.month + 9) else (date.year, date.month - 3)

def daysBeforeMonth (month : Nat) : Nat :=
  (153 * month + 2) / 5

/-- The days from 1 March of year 0. -/
def dayNumber (date : Date) : Int :=
  let (year, month) := date.marchYear
  365 * year + year / 4 - year / 100 + year / 400 + daysBeforeMonth month + date.day - 1

def ofDayOfYear (year : Int) (day : Nat) : Date :=
  let month := (5 * day + 2) / 153
  let dayOfMonth := day - daysBeforeMonth month + 1
  if month < 10 then ⟨year, month + 3, dayOfMonth⟩ else ⟨year + 1, month - 9, dayOfMonth⟩

/-- The date so many days from 1 March of year 0: the cycles of 400, 100, 4 and 1 years are taken
off in turn, and the last of each kind may be a day longer than the others. -/
def ofDayNumber (number : Int) : Date :=
  let cycle := number / 146097
  let dayOfCycle := (number % 146097).toNat
  let century := min (dayOfCycle / 36524) 3
  let dayOfCentury := dayOfCycle - century * 36524
  let quad := dayOfCentury / 1461
  let dayOfQuad := dayOfCentury - quad * 1461
  let yearOfQuad := min (dayOfQuad / 365) 3
  let dayOfYear := dayOfQuad - yearOfQuad * 365
  ofDayOfYear (cycle * 400 + century * 100 + quad * 4 + yearOfQuad) dayOfYear

end Date

end LayeredQuery.Time
