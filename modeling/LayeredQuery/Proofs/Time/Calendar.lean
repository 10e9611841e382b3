import Mathlib.Tactic.IntervalCases
import LayeredQuery.Time.Calendar

/-!
# Days and their dates

Taking the cycles of years off a number of days gives a valid date, and the date gives the number of
days back.
-/

set_option autoImplicit false

namespace LayeredQuery.Time

theorem isLeapYear_iff {year : Int} :
    isLeapYear year = true ↔ year % 4 = 0 ∧ (year % 100 ≠ 0 ∨ year % 400 = 0) := by
  simp [isLeapYear]

namespace Date

/-! ## Days of a March year -/

def lastDayOfYear (year : Int) : Nat :=
  if isLeapYear (year + 1) then 365 else 364

theorem lastDayOfYear_le (year : Int) : lastDayOfYear year ≤ 365 := by
  unfold lastDayOfYear
  split <;> omega

theorem dayNumber_ofDayOfYear (year : Int) {day : Nat} (inYear : day ≤ 365) :
    (ofDayOfYear year day).dayNumber = 365 * year + year / 4 - year / 100 + year / 400 + day := by
  unfold ofDayOfYear
  simp only
  split
  · simp only [dayNumber, marchYear, daysBeforeMonth]
    rw [if_neg (by omega)]
    simp only
    omega
  · simp only [dayNumber, marchYear, daysBeforeMonth]
    rw [if_pos (by omega)]
    simp only
    omega

theorem isValid_ofDayOfYear {year : Int} {day : Nat} (inYear : day ≤ lastDayOfYear year) :
    (ofDayOfYear year day).isValid = true := by
  have last := lastDayOfYear_le year
  have months : (5 * day + 2) / 153 ≤ 11 := by omega
  simp only [ofDayOfYear, daysBeforeMonth]
  generalize isMonth : (5 * day + 2) / 153 = month at months
  interval_cases month
  case «11» =>
    unfold lastDayOfYear at inYear
    cases leap : isLeapYear (year + 1) <;> simp [leap, isValid, monthLength] at inYear ⊢ <;> omega
  all_goals
    simp [isValid, monthLength]
    omega

/-! ## Days of all years -/

theorem daysBeforeYear (cycle : Int) {century quad rest : Nat} (centuries : century ≤ 3)
    (quads : quad ≤ 24) (rests : rest ≤ 3) :
    let year := cycle * 400 + century * 100 + quad * 4 + rest
    365 * year + year / 4 - year / 100 + year / 400 =
      146097 * cycle + 36524 * century + 1461 * quad + 365 * rest := by
  intro year
  have fours : year / 4 = 100 * cycle + 25 * century + quad := by omega
  have hundreds : year / 100 = 4 * cycle + century := by omega
  have fourHundreds : year / 400 = cycle := by omega
  omega

/-- A number of days leads to a day of a March year that has it, after the days of all years
before. -/
theorem exists_ofDayNumber (number : Int) :
    ∃ year day, ofDayNumber number = ofDayOfYear year day ∧ day ≤ lastDayOfYear year ∧
      365 * year + year / 4 - year / 100 + year / 400 + day = number := by
  have cycles : number = 146097 * (number / 146097) + (number % 146097).toNat := by omega
  have dayOfCycle : (number % 146097).toNat < 146097 := by omega
  simp only [ofDayNumber]
  generalize number / 146097 = cycle at cycles
  generalize (number % 146097).toNat = day at cycles dayOfCycle
  generalize isCentury : min (day / 36524) 3 = century
  generalize isQuad : (day - century * 36524) / 1461 = quad
  generalize isRest : min ((day - century * 36524 - quad * 1461) / 365) 3 = rest
  refine ⟨_, _, rfl, ?_, ?_⟩
  · unfold lastDayOfYear
    split
    · omega
    · rename_i common
      rw [isLeapYear_iff] at common
      omega
  · have before := @daysBeforeYear cycle century quad rest (by omega) (by omega) (by omega)
    simp only at before
    rw [before]
    omega

theorem dayNumber_ofDayNumber (number : Int) : (ofDayNumber number).dayNumber = number := by
  obtain ⟨year, day, isDate, inYear, total⟩ := exists_ofDayNumber number
  rw [isDate, dayNumber_ofDayOfYear year (Nat.le_trans inYear (lastDayOfYear_le year)), total]

theorem isValid_ofDayNumber (number : Int) : (ofDayNumber number).isValid = true := by
  obtain ⟨year, day, isDate, inYear, _⟩ := exists_ofDayNumber number
  rw [isDate]
  exact isValid_ofDayOfYear inYear

end Date

end LayeredQuery.Time
