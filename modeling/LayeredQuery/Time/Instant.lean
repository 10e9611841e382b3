import LayeredQuery.Text.Digit
import LayeredQuery.Time.Calendar

/-!
# Instants

An instant is a day, a second of the day and a nanosecond, in universal time. A leap second is
kept as the second before it with a nanosecond count of a billion or more, so that it lies between
second 59 and the next minute. Reading gives leap seconds at the end of a minute only, but an
instant can have such a count after any second.

The text form is `2024-05-01T12:00:00.250Z`. Reading admits any offset from universal time of
less than a day, a fraction of any length of which nine digits count, and a blank or lower-case
letters for `T` and `Z`. Writing gives universal time and as many digits of the fraction, in threes,
as it needs. A nanosecond count of a billion or more is written as a second more, which after second
59 is second 60.
-/

set_option autoImplicit false

namespace LayeredQuery.Time
open LayeredQuery.Text

def billion : Nat := 1000000000

structure Instant where
  /-- Days from 1 March of year 0. -/
  day : Int
  second : Nat
  nano : Nat
  second_lt : second < 86400
  nano_lt : nano < 2 * billion
deriving DecidableEq

namespace Instant

def of? (day : Int) (second nano : Nat) : Option Instant :=
  if h : second < 86400 ∧ nano < 2 * billion then some ⟨day, second, nano, h.1, h.2⟩ else none

def order (x y : Instant) : Ordering :=
  (compare x.day y.day).then ((compare x.second y.second).then (compare x.nano y.nano))

/-! ## Reading -/

def digits? : Nat → Nat → List Char → Option (Nat × List Char)
  | 0, value, text => some (value, text)
  | count + 1, value, c :: rest =>
    if c.isDigit then digits? count (value * 10 + decimalValue c) rest else none
  | _ + 1, _, [] => none

def number? (count : Nat) (text : List Char) : Option (Nat × List Char) :=
  digits? count 0 text

def after? (expected : Char → Bool) : List Char → Option (List Char)
  | c :: rest => if expected c then some rest else none
  | [] => none

def date? (text : List Char) : Option (Date × List Char) := do
  let (year, text) ← number? 4 text
  let text ← after? (· == '-') text
  let (month, text) ← number? 2 text
  let text ← after? (· == '-') text
  let (day, text) ← number? 2 text
  let date : Date := ⟨year, month, day⟩
  if date.isValid then some (date, text) else none

/-- The nanoseconds of a fraction, of which the first nine digits count. -/
def fractionNanos (digits : List Char) : Nat :=
  decimal (digits.take 9 ++ List.replicate (9 - digits.length) '0')

def fraction? : List Char → Option (Nat × List Char)
  | '.' :: rest =>
    let digits := rest.takeWhile Char.isDigit
    if digits.isEmpty then none else some (fractionNanos digits, rest.dropWhile Char.isDigit)
  | text => some (0, text)

/-- A time of day as its seconds and nanoseconds; second 60 is a leap second. -/
def timeOfDay? (text : List Char) : Option ((Nat × Nat) × List Char) := do
  let (hour, text) ← number? 2 text
  let text ← after? (· == ':') text
  let (minute, text) ← number? 2 text
  let text ← after? (· == ':') text
  let (second, text) ← number? 2 text
  let (nanos, text) ← fraction? text
  if hour ≤ 23 ∧ minute ≤ 59 ∧ second ≤ 60 then
    let seconds := hour * 3600 + minute * 60
    if second = 60 then some ((seconds + 59, nanos + billion), text)
    else some ((seconds + second, nanos), text)
  else none

def hourMinute? (text : List Char) : Option (Nat × List Char) := do
  let (hour, text) ← number? 2 text
  let text ← after? (· == ':') text
  let (minute, text) ← number? 2 text
  if hour ≤ 23 ∧ minute ≤ 59 then some (hour * 3600 + minute * 60, text) else none

/-- The seconds by which local time is ahead of universal time. The minus sign U+2212 is as good
as the hyphen. -/
def offset? : List Char → Option (Int × List Char)
  | [] => none
  | c :: rest =>
    if c = 'Z' ∨ c = 'z' then some (0, rest)
    else if c = '+' then (hourMinute? rest).map fun (seconds, text) => (seconds, text)
    else if c = '-' ∨ c = '\u2212' then
      (hourMinute? rest).map fun (seconds, text) => (-seconds, text)
    else none

def ofLocal? (date : Date) (time : Nat × Nat) (offset : Int) : Option Instant :=
  let seconds := date.dayNumber * 86400 + time.1 - offset
  of? (seconds / 86400) (seconds % 86400).toNat time.2

def ofChars? (text : List Char) : Option Instant := do
  let (date, text) ← date? text
  let text ← after? (fun c => c == 'T' || c == 't' || c == ' ') text
  let (time, text) ← timeOfDay? text
  let (offset, text) ← offset? text
  if text.isEmpty then ofLocal? date time offset else none

def ofText? (text : String) : Option Instant :=
  ofChars? text.toList

/-! ## Writing -/

def padded (width n : Nat) : List Char :=
  fixedWidth 10 width n

def atLeastFour (n : Nat) : List Char :=
  if n < 10000 then padded 4 n else Nat.toDigits 10 n

/-- Years of other than four digits carry a sign. -/
def yearText (year : Int) : List Char :=
  if 0 ≤ year ∧ year ≤ 9999 then padded 4 year.toNat
  else if year < 0 then '-' :: atLeastFour year.natAbs
  else '+' :: atLeastFour year.natAbs

def fractionText (nanos : Nat) : List Char :=
  if nanos = 0 then []
  else if nanos % 1000000 = 0 then '.' :: padded 3 (nanos / 1000000)
  else if nanos % 1000 = 0 then '.' :: padded 6 (nanos / 1000)
  else '.' :: padded 9 nanos

def chars (x : Instant) : List Char :=
  let date := Date.ofDayNumber x.day
  let second := if x.nano < billion then x.second % 60 else x.second % 60 + 1
  yearText date.year ++ ['-'] ++ padded 2 date.month ++ ['-'] ++ padded 2 date.day ++ ['T']
    ++ padded 2 (x.second / 3600) ++ [':'] ++ padded 2 (x.second / 60 % 60) ++ [':']
    ++ padded 2 second ++ fractionText (x.nano % billion) ++ ['Z']

def text (x : Instant) : String :=
  String.ofList x.chars

end Instant

end LayeredQuery.Time
