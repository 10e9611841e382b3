import Mathlib.Algebra.Order.Field.Power
import Mathlib.Algebra.Order.Ring.Rat
import Mathlib.Data.List.DropRight
import Mathlib.Data.Nat.Cast.Order.Field
import Mathlib.Tactic.Linarith
import Mathlib.Tactic.NormNum
import Mathlib.Tactic.Positivity
import Mathlib.Tactic.Ring
import LayeredQuery.Number.Shortest
import LayeredQuery.Proofs.Text.Digit

/-!
# Shortest digits name their number

The values that round to a float make an interval around it. The intervals of different floats are
apart: where two of them meet in an end, one of the mantissas is odd, and its interval has no ends.
The search for the shortest digits ends with a decimal in the interval, because the grid of decimals
with seventeen digits is finer than the interval is wide. So the digits name one float only.
-/

set_option autoImplicit false

namespace LayeredQuery.Number

/-! ## Values that round to a float -/

namespace Binary64

def quarter (x : Binary64) : ℚ := 2 ^ (x.exponent - 2)

/-- How many quarters below a float the values begin that round to it: half a place, but less below
a power of two, where the places are half as wide. -/
def quartersBelow (x : Binary64) : Nat :=
  if x.mantissa = 1 <<< 52 ∧ -1074 < x.exponent then 1 else 2

def worth (x : Binary64) : ℚ := (4 * x.mantissa : Nat) * x.quarter

def lowEnd (x : Binary64) : ℚ := (4 * x.mantissa - x.quartersBelow : Nat) * x.quarter

def highEnd (x : Binary64) : ℚ := (4 * x.mantissa + 2 : Nat) * x.quarter

/-- A value rounds to the magnitude of a float when it lies between the ends, or is an end of a
float with an even mantissa. -/
structure RoundsTo (value : ℚ) (x : Binary64) : Prop where
  low : x.lowEnd ≤ value
  high : value ≤ x.highEnd
  inside : x.mantissa % 2 = 1 → x.lowEnd < value ∧ value < x.highEnd

variable {x y : Binary64} {value : ℚ}

theorem quarter_pos (x : Binary64) : 0 < x.quarter :=
  zpow_pos (by norm_num) _

theorem quartersBelow_le (x : Binary64) : 1 ≤ x.quartersBelow ∧ x.quartersBelow ≤ 2 := by
  unfold quartersBelow
  split <;> decide

theorem highEnd_le {count : Nat} (bound : 4 * x.mantissa + 2 ≤ count) :
    x.highEnd ≤ count * x.quarter :=
  mul_le_mul_of_nonneg_right (by exact_mod_cast bound) x.quarter_pos.le

theorem le_lowEnd {count : Nat} (bound : count + x.quartersBelow ≤ 4 * x.mantissa) :
    count * x.quarter ≤ x.lowEnd :=
  mul_le_mul_of_nonneg_right (by exact_mod_cast Nat.le_sub_of_add_le bound) x.quarter_pos.le

theorem roundsTo_of_between (low : x.lowEnd < value) (high : value < x.highEnd) :
    RoundsTo value x :=
  ⟨low.le, high.le, fun _ => ⟨low, high⟩⟩

theorem not_roundsTo_of_exponent_lt (lt : x.exponent < y.exponent) (toX : RoundsTo value x) :
    ¬RoundsTo value y := by
  intro toY
  obtain ⟨small, least, _, _⟩ := x.canonical
  obtain ⟨_, _, _, normal⟩ := y.canonical
  have full : 1 <<< 52 ≤ y.mantissa := normal.resolve_right (by omega)
  rw [Nat.one_shiftLeft] at small full
  have low : (2 ^ 54 - 1 : Nat) * y.quarter ≤ y.lowEnd := by
    refine le_lowEnd ?_
    by_cases power : y.mantissa = 1 <<< 52
    · have narrow : y.quartersBelow = 1 := if_pos ⟨power, by omega⟩
      omega
    · have := y.quartersBelow_le
      rw [Nat.one_shiftLeft] at power
      omega
  have wider : 2 * x.quarter ≤ y.quarter := by
    have step : (2 : ℚ) ^ (x.exponent - 2 + 1) ≤ 2 ^ (y.exponent - 2) :=
      zpow_le_zpow_right₀ (by norm_num) (by omega)
    rw [zpow_add_one₀ (by norm_num), mul_comm] at step
    exact step
  have positive := x.quarter_pos
  have reached := toY.low
  rcases Nat.mod_two_eq_zero_or_one x.mantissa with even | odd
  · have high : x.highEnd ≤ (2 ^ 55 - 6 : Nat) * x.quarter := highEnd_le (by omega)
    have := toX.high
    norm_num at low high
    linarith
  · have high : x.highEnd ≤ (2 ^ 55 - 2 : Nat) * x.quarter := highEnd_le (by omega)
    have := (toX.inside odd).2
    norm_num at low high
    linarith

theorem not_roundsTo_of_mantissa_lt (same : x.exponent = y.exponent)
    (lt : x.mantissa < y.mantissa) (toX : RoundsTo value x) : ¬RoundsTo value y := by
  intro toY
  have sameQuarter : y.quarter = x.quarter := by rw [quarter, quarter, same]
  have narrow := y.quartersBelow_le
  have low : (4 * y.mantissa - 2 : Nat) * y.quarter ≤ y.lowEnd := le_lowEnd (by omega)
  have high : x.highEnd ≤ (4 * y.mantissa - 2 : Nat) * x.quarter := highEnd_le (by omega)
  rw [sameQuarter] at low
  have reached := toX.high
  have reached' := toY.low
  rcases Nat.mod_two_eq_zero_or_one x.mantissa with even | odd
  · rcases Nat.mod_two_eq_zero_or_one y.mantissa with even' | odd'
    · -- Between two even mantissas there is an odd one.
      have apart : x.highEnd ≤ (4 * y.mantissa - 6 : Nat) * x.quarter := highEnd_le (by omega)
      have further : ((4 * y.mantissa - 6 : Nat) : ℚ) < (4 * y.mantissa - 2 : Nat) := by
        exact_mod_cast (by omega : 4 * y.mantissa - 6 < 4 * y.mantissa - 2)
      have := mul_lt_mul_of_pos_right further x.quarter_pos
      linarith
    · have := (toY.inside odd').1
      linarith
  · have := (toX.inside odd).2
    linarith

/-- A value rounds to one magnitude only. -/
theorem roundsTo_unique (toX : RoundsTo value x) (toY : RoundsTo value y) :
    x.mantissa = y.mantissa ∧ x.exponent = y.exponent := by
  rcases lt_trichotomy x.exponent y.exponent with lower | same | higher
  · exact absurd toY (not_roundsTo_of_exponent_lt lower toX)
  · rcases lt_trichotomy x.mantissa y.mantissa with smaller | equal | greater
    · exact absurd toY (not_roundsTo_of_mantissa_lt same smaller toX)
    · exact ⟨equal, same⟩
    · exact absurd toX (not_roundsTo_of_mantissa_lt same.symm greater toY)
  · exact absurd toX (not_roundsTo_of_exponent_lt higher toY)

theorem eq_of_roundsTo (sign : x.negative = y.negative) (toX : RoundsTo value x)
    (toY : RoundsTo value y) : x = y := by
  obtain ⟨mantissa, exponent⟩ := roundsTo_unique toX toY
  cases x
  cases y
  cases sign
  cases mantissa
  cases exponent
  rfl

theorem roundsTo_worth (x : Binary64) : RoundsTo x.worth x := by
  have narrow := x.quartersBelow_le
  have quarter := x.quarter_pos
  refine ⟨?_, ?_, fun odd => ⟨?_, ?_⟩⟩
  · exact mul_le_mul_of_nonneg_right (by exact_mod_cast Nat.sub_le _ _) quarter.le
  · exact mul_le_mul_of_nonneg_right (by exact_mod_cast Nat.le_add_right _ _) quarter.le
  · exact mul_lt_mul_of_pos_right (by exact_mod_cast (by omega)) quarter
  · exact mul_lt_mul_of_pos_right (by exact_mod_cast (by omega)) quarter

theorem worth_eq (x : Binary64) : x.worth = x.magnitude * 2 ^ (-1074 : Int) := by
  obtain ⟨_, least, _, _⟩ := x.canonical
  have two : (2 : ℚ) ≠ 0 := by norm_num
  have places : (2 : ℚ) ^ (x.exponent + 1074).toNat = 2 ^ (x.exponent + 1074) := by
    rw [← zpow_natCast, Int.toNat_of_nonneg (by omega)]
  calc
    x.worth = 4 * x.mantissa * 2 ^ (x.exponent - 2) := by
      rw [worth, quarter, Nat.cast_mul, Nat.cast_ofNat]
    _ = x.mantissa * 2 ^ x.exponent := by
      rw [zpow_sub₀ two]
      ring
    _ = x.mantissa * (2 ^ (x.exponent + 1074) * 2 ^ (-1074 : Int)) := by
      rw [← zpow_add₀ two, show x.exponent + 1074 + -1074 = x.exponent by omega]
    _ = x.magnitude * 2 ^ (-1074 : Int) := by
      rw [magnitude, Nat.shiftLeft_eq, Nat.cast_mul, Nat.cast_pow, Nat.cast_ofNat, places,
        mul_assoc]

theorem eq_of_magnitude (sign : x.negative = y.negative) (same : x.magnitude = y.magnitude) :
    x = y := by
  have worths : x.worth = y.worth := by rw [worth_eq, worth_eq, same]
  exact eq_of_roundsTo sign x.roundsTo_worth (worths ▸ y.roundsTo_worth)

end Binary64

namespace Digits

open Binary64

variable {x : Binary64} {tie : Tie}

/-! ## Ratios -/

theorem powerOfTen_eq (power : Int) : 0 < (powerOfTen power).1 ∧ 0 < (powerOfTen power).2 ∧
    ((powerOfTen power).1 : ℚ) / (powerOfTen power).2 = 10 ^ power := by
  cases power with
  | ofNat n =>
    refine ⟨Nat.pow_pos (by decide), Nat.one_pos, ?_⟩
    simp [powerOfTen]
  | negSucc n =>
    refine ⟨Nat.one_pos, Nat.pow_pos (by decide), ?_⟩
    simp [powerOfTen, zpow_negSucc]

theorem ratio_one (exponent : Int) : 0 < (ratio 1 exponent).2 ∧
    ((ratio 1 exponent).1 : ℚ) / (ratio 1 exponent).2 = 2 ^ exponent := by
  cases exponent with
  | ofNat n =>
    refine ⟨Nat.one_pos, ?_⟩
    simp [ratio, Nat.one_shiftLeft]
  | negSucc n =>
    refine ⟨?_, ?_⟩
    · rw [ratio, Nat.one_shiftLeft]
      exact Nat.two_pow_pos _
    · simp [ratio, Nat.one_shiftLeft, zpow_negSucc]

/-! ## Intervals -/

/-- What an interval holds of the float it belongs to. -/
structure Interval.Surrounds (i : Interval) (x : Binary64) : Prop where
  positive : 0 < i.denominator
  low : (i.low : ℚ) / i.denominator = x.lowEnd
  value : (i.value : ℚ) / i.denominator = x.worth
  high : (i.high : ℚ) / i.denominator = x.highEnd
  closed : i.closed = true ↔ x.mantissa % 2 = 0

theorem interval_surrounds (x : Binary64) : (interval x).Surrounds x := by
  obtain ⟨positive, scale⟩ := ratio_one (x.exponent - 2)
  have scaled (count : Nat) : ((count * (ratio 1 (x.exponent - 2)).1 : Nat) : ℚ) /
      (ratio 1 (x.exponent - 2)).2 = count * x.quarter := by
    rw [Nat.cast_mul, mul_div_assoc, scale, quarter]
  exact ⟨positive, scaled _, scaled _, scaled _, decide_eq_true_iff⟩

theorem Interval.Surrounds.contains_iff {i : Interval} (surrounds : i.Surrounds x)
    {numerator denominator : Nat} (positive : 0 < denominator) :
    i.contains numerator denominator = true ↔
      RoundsTo ((numerator : ℚ) / denominator) x := by
  have ownPositive : (0 : ℚ) < i.denominator := by exact_mod_cast surrounds.positive
  have positive : (0 : ℚ) < denominator := by exact_mod_cast positive
  have lowLe : i.low * denominator ≤ numerator * i.denominator ↔
      x.lowEnd ≤ (numerator : ℚ) / denominator := by
    rw [← surrounds.low, div_le_div_iff₀ ownPositive positive]
    exact_mod_cast Iff.rfl
  have leHigh : numerator * i.denominator ≤ i.high * denominator ↔
      (numerator : ℚ) / denominator ≤ x.highEnd := by
    rw [← surrounds.high, div_le_div_iff₀ positive ownPositive]
    exact_mod_cast Iff.rfl
  have lowLt : i.low * denominator < numerator * i.denominator ↔
      x.lowEnd < (numerator : ℚ) / denominator := by
    rw [← surrounds.low, div_lt_div_iff₀ ownPositive positive]
    exact_mod_cast Iff.rfl
  have ltHigh : numerator * i.denominator < i.high * denominator ↔
      (numerator : ℚ) / denominator < x.highEnd := by
    rw [← surrounds.high, div_lt_div_iff₀ positive ownPositive]
    exact_mod_cast Iff.rfl
  unfold Interval.contains
  cases isClosed : i.closed with
  | true =>
    have even := surrounds.closed.mp isClosed
    simp only [if_true, Bool.and_eq_true, decide_eq_true_eq, lowLe, leHigh]
    exact ⟨fun ⟨low, high⟩ => ⟨low, high, fun odd => by omega⟩,
      fun rounds => ⟨rounds.low, rounds.high⟩⟩
  | false =>
    have odd : x.mantissa % 2 = 1 := by
      have := mt surrounds.closed.mpr (by rw [isClosed]; exact Bool.false_ne_true)
      omega
    simp only [Bool.false_eq_true, if_false, Bool.and_eq_true, decide_eq_true_eq, lowLt, ltHigh]
    exact ⟨fun ⟨low, high⟩ => ⟨low.le, high.le, fun _ => ⟨low, high⟩⟩,
      fun rounds => rounds.inside odd⟩

/-! ## Grids of decimals -/

/-- A hit on a grid is a decimal that rounds to the float. -/
theorem roundsTo_of_onGrid? {i : Interval} (surrounds : i.Surrounds x) {power : Int} {point : Nat}
    (hit : onGrid? tie i power = some point) : RoundsTo (point * 10 ^ power) x := by
  obtain ⟨_, positive, unit⟩ := powerOfTen_eq power
  rw [← unit, ← mul_div_assoc, ← Nat.cast_mul, ← surrounds.contains_iff positive]
  simp only [onGrid?] at hit
  split at hit
  · rename_i both
    obtain ⟨lower, upper⟩ := (Bool.and_eq_true _ _).mp both
    split at hit
    · cases hit
      exact lower
    · split at hit
      · cases hit
        exact upper
      · cases tie with
        | up =>
          cases hit
          exact upper
        | toEven =>
          simp only at hit
          split at hit <;> cases hit
          · exact lower
          · exact upper
  · split at hit
    · cases hit
      assumption
    · split at hit
      · cases hit
        assumption
      · cases hit

/-- A grid without a hit misses with both of the neighbours of the float. -/
theorem neighbours_of_missed {i : Interval} (surrounds : i.Surrounds x) {power : Int}
    (missed : onGrid? tie i power = none) :
    ∃ lower : Nat, lower * 10 ^ power ≤ x.worth ∧ x.worth < (lower + 1 : Nat) * 10 ^ power ∧
      ¬RoundsTo (lower * 10 ^ power) x ∧ ¬RoundsTo ((lower + 1 : Nat) * 10 ^ power) x := by
  obtain ⟨unitPositive, positive, unit⟩ := powerOfTen_eq power
  have ownPositive : (0 : ℚ) < i.denominator := by exact_mod_cast surrounds.positive
  have positive' : (0 : ℚ) < (powerOfTen power).2 := by exact_mod_cast positive
  have point (count : Nat) : (count : ℚ) * 10 ^ power =
      (count * (powerOfTen power).1 : Nat) / (powerOfTen power).2 := by
    rw [← unit, Nat.cast_mul, mul_div_assoc]
  refine ⟨i.value * (powerOfTen power).2 / (i.denominator * (powerOfTen power).1), ?_, ?_, ?_⟩
  · rw [point, ← surrounds.value, div_le_div_iff₀ positive' ownPositive]
    have below := Nat.div_mul_le_self (i.value * (powerOfTen power).2)
      (i.denominator * (powerOfTen power).1)
    rw [Nat.mul_comm i.denominator, ← Nat.mul_assoc] at below
    rw [Nat.mul_comm i.denominator]
    exact_mod_cast below
  · rw [point, ← surrounds.value, div_lt_div_iff₀ ownPositive positive']
    have above := Nat.lt_div_mul_add (a := i.value * (powerOfTen power).2)
      (Nat.mul_pos surrounds.positive unitPositive)
    rw [← Nat.succ_mul, Nat.mul_comm i.denominator, ← Nat.mul_assoc] at above
    rw [Nat.mul_comm i.denominator]
    exact_mod_cast above
  · rw [point, point, ← surrounds.contains_iff positive, ← surrounds.contains_iff positive]
    simp only [onGrid?] at missed
    split at missed
    · split at missed
      · cases missed
      · split at missed
        · cases missed
        · cases tie with
          | up => cases missed
          | toEven =>
            simp only at missed
            split at missed <;> cases missed
    · split at missed
      · cases missed
      · split at missed
        · cases missed
        · exact ⟨‹_›, ‹_›⟩

/-- A grid of which a float is worth more than sixteen powers of ten has a hit. -/
theorem onGrid?_ne_none {i : Interval} (surrounds : i.Surrounds x) {power : Int}
    (fine : 10 ^ 16 * 10 ^ power ≤ x.worth) : onGrid? tie i power ≠ none := by
  intro missed
  obtain ⟨lower, below, above, missesLower, missesUpper⟩ := neighbours_of_missed surrounds missed
  have step : (0 : ℚ) < 10 ^ power := zpow_pos (by norm_num) _
  have quarter := x.quarter_pos
  obtain ⟨small, _, _, _⟩ := x.canonical
  have narrow := x.quartersBelow_le
  rw [Nat.one_shiftLeft] at small
  have nonzero : 0 < x.mantissa := by
    refine Nat.pos_of_ne_zero fun zero => ?_
    rw [worth, zero, Nat.mul_zero, Nat.cast_zero, zero_mul] at fine
    linarith
  have low : x.lowEnd = x.worth - x.quartersBelow * x.quarter := by
    rw [lowEnd, worth, Nat.cast_sub (by omega), sub_mul]
  have high : x.highEnd = x.worth + 2 * x.quarter := by
    rw [highEnd, worth, Nat.cast_add, add_mul, Nat.cast_ofNat]
  have someBelow : (1 : ℚ) ≤ x.quartersBelow := by exact_mod_cast narrow.1
  have lowerOut : lower * 10 ^ power ≤ x.lowEnd := by
    refine le_of_not_gt fun inside => missesLower (roundsTo_of_between inside ?_)
    linarith
  have upperOut : x.highEnd ≤ (lower + 1 : Nat) * 10 ^ power := by
    refine le_of_not_gt fun inside => missesUpper (roundsTo_of_between ?_ inside)
    nlinarith
  have wide : (x.quartersBelow + 2) * x.quarter ≤ 10 ^ power := by
    rw [Nat.cast_succ] at upperOut
    linarith
  have bound : (10 : ℚ) ^ 16 * (x.quartersBelow + 2) ≤ (4 * x.mantissa : Nat) := by
    refine le_of_mul_le_mul_right ?_ quarter
    calc
      (10 : ℚ) ^ 16 * (x.quartersBelow + 2) * x.quarter
          = 10 ^ 16 * ((x.quartersBelow + 2) * x.quarter) := mul_assoc _ _ _
      _ ≤ 10 ^ 16 * 10 ^ power := by gcongr
      _ ≤ (4 * x.mantissa : Nat) * x.quarter := fine
  have bound : 10 ^ 16 * (x.quartersBelow + 2) ≤ 4 * x.mantissa := by exact_mod_cast bound
  unfold quartersBelow at bound
  split at bound
  · rename_i power
    rw [power.1, Nat.one_shiftLeft] at bound
    omega
  · omega

/-! ## The search -/

theorem one_le_worth (nonzero : 0 < x.mantissa) : 1 ≤ x.worth * 10 ^ 400 := by
  have some : 1 ≤ x.magnitude := by
    rw [magnitude, Nat.shiftLeft_eq]
    exact Nat.mul_pos nonzero (Nat.two_pow_pos _)
  have worth : (2 : ℚ) ^ (-1074 : Int) ≤ x.worth := by
    rw [worth_eq]
    exact le_mul_of_one_le_left (zpow_nonneg (by norm_num) _) (by exact_mod_cast some)
  have powers : (2 : ℚ) ^ (1074 : Int) ≤ 10 ^ 400 := calc
    (2 : ℚ) ^ (1074 : Int) ≤ 2 ^ ((3 * 400 : Nat) : Int) :=
      zpow_le_zpow_right₀ (by norm_num) (by decide)
    _ = (2 ^ 3) ^ 400 := by rw [zpow_natCast, pow_mul]
    _ ≤ 10 ^ 400 := pow_le_pow_left₀ (by norm_num) (by norm_num) 400
  calc
    (1 : ℚ) = 2 ^ (-1074 : Int) * 2 ^ (1074 : Int) := by
      rw [← zpow_add₀ (by norm_num), neg_add_cancel, zpow_zero]
    _ ≤ x.worth * 10 ^ 400 := mul_le_mul worth powers (zpow_nonneg (by norm_num) _)
      ((zpow_nonneg (by norm_num) _).trans worth)

theorem power_le_of_length {n : Nat} (positive : 0 < n) :
    10 ^ ((Nat.toDigits 10 n).length - 1) ≤ n := by
  have counted : 0 < (Nat.toDigits 10 n).length := Nat.length_toDigits_pos
  rcases Nat.eq_or_lt_of_le counted with single | several
  · rw [← single]
    exact positive
  · refine Nat.le_of_not_lt fun short => ?_
    have fewer := (Nat.length_toDigits_le_iff (by decide) (by omega)).mpr short
    omega

/-- A float made greater until it is at least one has as many powers of ten as it then has digits
before the point, but one. -/
theorem power_le_of_scaled {i : Interval} (surrounds : i.Surrounds x) {places : Nat}
    (some : 1 ≤ x.worth * 10 ^ places) :
    10 ^ ((Nat.toDigits 10 (i.value * Nat.pow 10 places / i.denominator)).length - 1) ≤
      x.worth * 10 ^ places := by
  have ownPositive : (0 : ℚ) < i.denominator := by exact_mod_cast surrounds.positive
  have scaled : ((i.value * Nat.pow 10 places : Nat) : ℚ) / i.denominator =
      x.worth * 10 ^ places := by
    rw [Nat.cast_mul, mul_div_right_comm, surrounds.value, Nat.pow_eq, Nat.cast_pow,
      Nat.cast_ofNat]
  have counted : 0 < i.value * Nat.pow 10 places / i.denominator := by
    refine Nat.div_pos ?_ surrounds.positive
    rw [← scaled, one_le_div ownPositive, Nat.cast_le] at some
    exact some
  have digits := power_le_of_length counted
  calc
    (10 : ℚ) ^ ((Nat.toDigits 10 (i.value * Nat.pow 10 places / i.denominator)).length - 1)
        ≤ (i.value * Nat.pow 10 places / i.denominator : Nat) := by exact_mod_cast digits
    _ ≤ (i.value * Nat.pow 10 places : Nat) / i.denominator := Nat.cast_div_le
    _ = x.worth * 10 ^ places := scaled

theorem leadingExponent_le {i : Interval} (surrounds : i.Surrounds x) (nonzero : 0 < x.mantissa) :
    10 ^ leadingExponent i ≤ x.worth := by
  have some := one_le_worth nonzero
  -- The count of places gets a name, so that no power of it is computed.
  obtain ⟨places, isPlaces⟩ : ∃ places : Nat, 400 = places := ⟨400, rfl⟩
  rw [isPlaces] at some
  have exponent : leadingExponent i =
      ((Nat.toDigits 10 (i.value * Nat.pow 10 places / i.denominator)).length - 1 : Nat) -
        (places : Int) := by
    have counted := @Nat.length_toDigits_pos 10 (i.value * Nat.pow 10 places / i.denominator)
    unfold leadingExponent
    rw [isPlaces]
    omega
  rw [exponent, zpow_sub₀ (by norm_num), div_le_iff₀ (zpow_pos (by norm_num) _), zpow_natCast,
    zpow_natCast]
  exact power_le_of_scaled surrounds some

/-- If some count of digits hits that is still to be tried, the search ends with a hit. -/
theorem search_hits {i : Interval} {leading : Int} {sure : Nat}
    (hits : onGrid? tie i (leading - sure + 1) ≠ none) : ∀ (fuel count : Nat), count ≤ sure →
      sure < count + fuel → ∃ power point, search tie i leading fuel count = ofPoint point power ∧
        onGrid? tie i power = some point := by
  intro fuel
  induction fuel with
  | zero => intro count _ _; omega
  | succ fuel ih =>
    intro count reached enough
    rw [search]
    cases found : onGrid? tie i (leading - count + 1) with
    | some point => exact ⟨_, point, rfl, found⟩
    | none =>
      have later : count ≠ sure := by
        rintro rfl
        exact hits found
      exact ih (count + 1) (by omega) (by omega)

/-! ## Digits of a point -/

def value (d : Digits) : ℚ :=
  Text.decimal d.digits * 10 ^ (d.exponent + 1 - d.digits.length)

theorem withoutTrailingZeros_append (digits : List Char) :
    ∃ count, withoutTrailingZeros digits ++ List.replicate count '0' = digits := by
  have zeros : digits.rtakeWhile (· = '0') =
      List.replicate (digits.rtakeWhile (· = '0')).length '0' :=
    List.eq_replicate_of_mem fun c member => by simpa using List.mem_rtakeWhile_imp member
  refine ⟨_, (congrArg (withoutTrailingZeros digits ++ ·) zeros).symm.trans ?_⟩
  exact List.rdropWhile_append_rtakeWhile

theorem ofPoint_value (point : Nat) (power : Int) :
    (ofPoint point power).value = point * 10 ^ power := by
  obtain ⟨count, split⟩ := withoutTrailingZeros_append (Nat.toDigits 10 point)
  have read : Text.decimal (withoutTrailingZeros (Nat.toDigits 10 point)) * 10 ^ count = point := by
    rw [← Text.decimal_append_zeros, split, Text.decimal_toDigits]
  have length := congrArg List.length split
  rw [List.length_append, List.length_replicate] at length
  have exponent : power + (Nat.toDigits 10 point).length - 1 + 1 -
      (withoutTrailingZeros (Nat.toDigits 10 point)).length = count + power := by omega
  conv_rhs => rw [← read]
  rw [value, ofPoint]
  simp only [exponent]
  rw [zpow_add₀ (by norm_num), zpow_natCast, Nat.cast_mul, Nat.cast_pow, Nat.cast_ofNat, mul_assoc]

/-- The shortest digits are digits, and stand for a decimal that rounds to the float. -/
theorem shortest_roundsTo (tie : Tie) (nonzero : 0 < x.mantissa) :
    RoundsTo (shortest tie x).value x ∧ ∀ c ∈ (shortest tie x).digits, c.isDigit = true := by
  have surrounds := interval_surrounds x
  have fine : (10 : ℚ) ^ 16 * 10 ^ (leadingExponent (interval x) - (17 : Nat) + 1) ≤ x.worth := by
    have split : leadingExponent (interval x) =
        16 + (leadingExponent (interval x) - (17 : Nat) + 1) := by omega
    have bound := leadingExponent_le surrounds nonzero
    rw [split, zpow_add₀ (by norm_num)] at bound
    exact_mod_cast bound
  obtain ⟨power, point, found, hit⟩ :=
    search_hits (onGrid?_ne_none surrounds fine) 17 1 (by decide) (by decide)
  have isShortest : shortest tie x = ofPoint point power := found
  rw [isShortest, ofPoint_value]
  refine ⟨roundsTo_of_onGrid? surrounds hit, fun c member => ?_⟩
  obtain ⟨count, split⟩ := withoutTrailingZeros_append (Nat.toDigits 10 point)
  have inDigits : c ∈ Nat.toDigits 10 point := by
    rw [← split]
    exact List.mem_append_left _ member
  exact Nat.isDigit_of_mem_toDigits (by decide) (by decide) inDigits

end Digits

end LayeredQuery.Number
