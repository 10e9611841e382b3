import LayeredQuery.Proofs.Text.Digit
import LayeredQuery.Proofs.Time.Calendar
import LayeredQuery.Time.Instant

/-!
# Reading the text of an instant

The text of an instant is read part by part in the order in which it was written. It names the
instant again, save in two cases. A year before 0 or after 9999 is written with a sign, which is not
read. And a leap second after another second than the last of its minute is written as the second
that follows.
-/

set_option autoImplicit false

namespace LayeredQuery.Time.Instant

open LayeredQuery.Text

/-! ## Numbers -/

theorem digits?_append {digits : List Char} (areDigits : ∀ c ∈ digits, c.isDigit = true)
    (value : Nat) (rest : List Char) :
    digits? digits.length value (digits ++ rest) =
      some (digits.foldl (fun value c => value * 10 + decimalValue c) value, rest) := by
  induction digits generalizing value with
  | nil => rfl
  | cons c digits ih =>
    obtain ⟨isDigit, areDigits⟩ := List.forall_mem_cons.mp areDigits
    rw [List.length_cons, List.cons_append, digits?, if_pos isDigit, ih areDigits, List.foldl_cons]

theorem number?_padded {width n : Nat} (fits : n < 10 ^ width) (rest : List Char) :
    number? width (padded width n ++ rest) = some (n, rest) := by
  have read := digits?_append (@isDigit_of_mem_fixedWidth width n) 0 rest
  rw [length_fixedWidth, ← decimal, decimal_fixedWidth, Nat.mod_eq_of_lt fits] at read
  exact read

/-! ## Dates -/

theorem bounds_of_isValid {date : Date} (valid : date.isValid = true) :
    date.month ≤ 12 ∧ date.day ≤ 31 := by
  have longest : monthLength date.year date.month ≤ 31 := by
    unfold monthLength
    split <;> split <;> omega
  simp only [Date.isValid, Bool.and_eq_true, decide_eq_true_eq] at valid
  omega

theorem date?_padded {year month day : Nat} (short : year ≤ 9999)
    (valid : Date.isValid ⟨year, month, day⟩ = true) (rest : List Char) :
    date? (padded 4 year ++ '-' :: (padded 2 month ++ '-' :: (padded 2 day ++ rest))) =
      some (⟨year, month, day⟩, rest) := by
  have bounds := bounds_of_isValid valid
  simp only at bounds
  have readYear := @number?_padded 4 year (by omega)
  have readMonth := @number?_padded 2 month (by omega)
  have readDay := @number?_padded 2 day (by omega)
  simp [date?, readYear, readMonth, readDay, after?, valid]

theorem date?_sign {sign : Char} (noDigit : sign.isDigit = false) (rest : List Char) :
    date? (sign :: rest) = none := by
  simp [date?, number?, digits?, noDigit]

/-! ## Times of day -/

theorem fractionNanos_padded {width n : Nat} (short : width ≤ 9) (fits : n < 10 ^ width) :
    fractionNanos (padded width n) = n * 10 ^ (9 - width) := by
  unfold fractionNanos padded
  rw [List.take_of_length_le (by rw [length_fixedWidth]; exact short), length_fixedWidth,
    decimal_append_zeros, decimal_fixedWidth, Nat.mod_eq_of_lt fits]

theorem fraction?_padded {width n : Nat} (positive : 0 < width) (short : width ≤ 9)
    (fits : n < 10 ^ width) (rest : List Char) :
    fraction? ('.' :: (padded width n ++ 'Z' :: rest)) =
      some (n * 10 ^ (9 - width), 'Z' :: rest) := by
  have areDigits := @isDigit_of_mem_fixedWidth width n
  have taken : (padded width n ++ 'Z' :: rest).takeWhile Char.isDigit = padded width n := by
    rw [padded, List.takeWhile_append_of_pos areDigits]
    exact List.append_nil _
  have left : (padded width n ++ 'Z' :: rest).dropWhile Char.isDigit = 'Z' :: rest := by
    rw [padded, List.dropWhile_append_of_pos areDigits]
    rfl
  have nonempty : (padded width n).isEmpty = false := by
    rw [← Bool.not_eq_true, List.isEmpty_iff_length_eq_zero, padded, length_fixedWidth]
    omega
  simp only [fraction?, taken, left, nonempty, fractionNanos_padded short fits]
  rfl

theorem fraction?_fractionText {nanos : Nat} (fits : nanos < billion) (rest : List Char) :
    fraction? (fractionText nanos ++ 'Z' :: rest) = some (nanos, 'Z' :: rest) := by
  unfold billion at fits
  unfold fractionText
  split
  · rename_i none
    rw [none]
    rfl
  split
  · rw [List.cons_append, fraction?_padded (by decide) (by decide) (by omega)]
    congr 2
    omega
  split
  · rw [List.cons_append, fraction?_padded (by decide) (by decide) (by omega)]
    congr 2
    omega
  · rw [List.cons_append, fraction?_padded (by decide) (by decide) (by omega)]
    congr 2
    omega

theorem timeOfDay?_padded {hour minute second nanos : Nat} (hours : hour ≤ 23)
    (minutes : minute ≤ 59) (seconds : second ≤ 60) (fits : nanos < billion) (rest : List Char) :
    timeOfDay? (padded 2 hour ++ ':' :: (padded 2 minute ++ ':' :: (padded 2 second ++
        (fractionText nanos ++ 'Z' :: rest)))) =
      some (if second = 60 then (hour * 3600 + minute * 60 + 59, nanos + billion)
        else (hour * 3600 + minute * 60 + second, nanos), 'Z' :: rest) := by
  have readHour := @number?_padded 2 hour (by omega)
  have readMinute := @number?_padded 2 minute (by omega)
  have readSecond := @number?_padded 2 second (by omega)
  simp [timeOfDay?, readHour, readMinute, readSecond, after?, fraction?_fractionText fits, hours,
    minutes, seconds]
  split <;> rfl

/-! ## Instants -/

def year (x : Instant) : Int :=
  (Date.ofDayNumber x.day).year

/-- Whether the year of an instant is written without a sign. -/
def HasPlainYear (x : Instant) : Prop :=
  0 ≤ x.year ∧ x.year ≤ 9999

instance (x : Instant) : Decidable x.HasPlainYear :=
  inferInstanceAs (Decidable (_ ∧ _))

/-- The instant that the text of an instant is meant to name. -/
def written (x : Instant) : Instant :=
  if late : billion ≤ x.nano ∧ x.second % 60 ≠ 59 then
    ⟨x.day, x.second + 1, x.nano - billion, by have := x.second_lt; omega,
      by have := x.nano_lt; omega⟩
  else x

theorem written_eq_iff {x : Instant} :
    x.written = x ↔ (billion ≤ x.nano → x.second % 60 = 59) := by
  unfold written
  split
  · rename_i late
    constructor
    · intro same
      have := congrArg Instant.second same
      simp at this
    · exact fun inTime => absurd (inTime late.1) late.2
  · rename_i inTime
    simpa using inTime

theorem ofLocal?_utc (x : Instant) :
    ofLocal? (Date.ofDayNumber x.day) (x.second, x.nano) 0 = some x := by
  have inDay := x.second_lt
  have seconds : x.day * 86400 + x.second - 0 = x.day * 86400 + x.second := by omega
  have day : (x.day * 86400 + x.second) / 86400 = x.day := by omega
  have second : ((x.day * 86400 + x.second) % 86400).toNat = x.second := by omega
  simp only [ofLocal?, of?, Date.dayNumber_ofDayNumber, seconds, day, second]
  exact dif_pos ⟨x.second_lt, x.nano_lt⟩

theorem timeOfDay?_chars (x : Instant) :
    timeOfDay? (padded 2 (x.second / 3600) ++ ':' :: (padded 2 (x.second / 60 % 60) ++ ':' ::
        (padded 2 (if x.nano < billion then x.second % 60 else x.second % 60 + 1) ++
          (fractionText (x.nano % billion) ++ ['Z'])))) =
      some ((x.written.second, x.written.nano), ['Z']) := by
  have inDay := x.second_lt
  have inRange := x.nano_lt
  have parts : x.second / 3600 * 3600 + x.second / 60 % 60 * 60 + x.second % 60 = x.second := by
    omega
  rw [timeOfDay?_padded (by omega) (by omega) (by split <;> omega)
    (Nat.mod_lt _ (by decide))]
  -- Only with an excess count does what is written differ from the second and nanosecond kept.
  by_cases late : x.nano < billion
  · have kept : x.written = x := written_eq_iff.mpr fun excess => by omega
    rw [if_pos late, if_neg (by omega), Nat.mod_eq_of_lt late, kept, parts]
  · have nanos : x.nano % billion = x.nano - billion := by
      rw [Nat.mod_eq_sub_mod (by omega), Nat.mod_eq_of_lt (by omega)]
    rw [if_neg late, nanos]
    by_cases last : x.second % 60 = 59
    · have kept : x.written = x := written_eq_iff.mpr fun _ => last
      have sixtieth : x.second / 3600 * 3600 + x.second / 60 % 60 * 60 + 59 = x.second := by omega
      rw [if_pos (by omega), kept, sixtieth, Nat.sub_add_cancel (by omega)]
    · have next : x.second / 3600 * 3600 + x.second / 60 % 60 * 60 + (x.second % 60 + 1) =
          x.second + 1 := by omega
      rw [if_neg (by omega), next, written, dif_pos ⟨by omega, last⟩]

theorem yearText_of_not_plain {x : Instant} (signed : ¬x.HasPlainYear) :
    ∃ sign digits, yearText x.year = sign :: digits ∧ sign.isDigit = false := by
  have isYear : yearText x.year = if x.year < 0 then '-' :: atLeastFour x.year.natAbs
      else '+' :: atLeastFour x.year.natAbs := if_neg signed
  rw [isYear]
  split
  · exact ⟨'-', _, rfl, rfl⟩
  · exact ⟨'+', _, rfl, rfl⟩

theorem day_written (x : Instant) : x.written.day = x.day := by
  unfold written
  split <;> rfl

/-- The text of an instant is read unless its year has a sign. -/
theorem ofText?_text (x : Instant) :
    ofText? x.text = if x.HasPlainYear then some x.written else none := by
  have isText : x.text.toList = yearText x.year ++ '-' ::
      (padded 2 (Date.ofDayNumber x.day).month ++ '-' ::
        (padded 2 (Date.ofDayNumber x.day).day ++ 'T' :: (padded 2 (x.second / 3600) ++ ':' ::
          (padded 2 (x.second / 60 % 60) ++ ':' ::
            (padded 2 (if x.nano < billion then x.second % 60 else x.second % 60 + 1) ++
              (fractionText (x.nano % billion) ++ ['Z'])))))) := by
    simp [text, chars, year]
  rw [ofText?, ofChars?, isText]
  by_cases plain : x.HasPlainYear
  · have isYear : ((x.year.toNat : Nat) : Int) = x.year := Int.toNat_of_nonneg plain.1
    have isDate : (⟨x.year.toNat, (Date.ofDayNumber x.day).month,
        (Date.ofDayNumber x.day).day⟩ : Date) = Date.ofDayNumber x.day := by
      rw [isYear]
      rfl
    have valid := Date.isValid_ofDayNumber x.day
    rw [← isDate] at valid
    have yearRead : yearText x.year = padded 4 x.year.toNat := if_pos plain
    have named := ofLocal?_utc x.written
    rw [day_written] at named
    rw [yearRead, date?_padded (by have := plain.2; omega) valid, isDate, if_pos plain]
    simp [after?, timeOfDay?_chars x, offset?, named]
  · obtain ⟨sign, digits, isYear, noDigit⟩ := yearText_of_not_plain plain
    rw [isYear, List.cons_append, date?_sign noDigit, if_neg plain]
    rfl

/-- Whether an instant is the one that its text names. -/
def IsNamed (x : Instant) : Prop :=
  x.HasPlainYear ∧ (billion ≤ x.nano → x.second % 60 = 59)

instance (x : Instant) : Decidable x.IsNamed :=
  inferInstanceAs (Decidable (_ ∧ _))

theorem ofText?_text_iff {x : Instant} : ofText? x.text = some x ↔ x.IsNamed := by
  rw [ofText?_text, IsNamed]
  by_cases plain : x.HasPlainYear
  · simp [plain, written_eq_iff]
  · simp [plain]

end LayeredQuery.Time.Instant
