import Mathlib.Tactic.SplitIfs
import LayeredQuery.Number.Binary64

/-!
# Whole numbers as floats

A whole number of 64 bits has a nearest float. Its places beyond the 53 of a mantissa are rounded
away, so what the float is worth is again a whole number, and it grows with the number it comes
from. Two whole numbers can have one nearest float, but never do two floats stand in the other
order than the numbers they are nearest to.
-/

set_option autoImplicit false

namespace LayeredQuery.Number.Binary64

/-! ## Rounding quotients -/

theorem roundHalfEven_mul (quotient : Nat) {denominator : Nat} (positive : 0 < denominator) :
    roundHalfEven (quotient * denominator) denominator = quotient := by
  have exact : quotient * denominator / denominator = quotient := Nat.mul_div_cancel _ positive
  simp only [roundHalfEven, exact, Nat.mul_mod_left]
  rw [if_pos (by omega)]

theorem div_le_roundHalfEven (numerator denominator : Nat) :
    numerator / denominator ≤ roundHalfEven numerator denominator := by
  simp only [roundHalfEven]
  split_ifs <;> omega

theorem roundHalfEven_le_div_add_one (numerator denominator : Nat) :
    roundHalfEven numerator denominator ≤ numerator / denominator + 1 := by
  simp only [roundHalfEven]
  split_ifs <;> omega

theorem roundHalfEven_mono {low high : Nat} (denominator : Nat) (le : low ≤ high) :
    roundHalfEven low denominator ≤ roundHalfEven high denominator := by
  have quotients : low / denominator ≤ high / denominator := Nat.div_le_div_right le
  rcases Nat.lt_or_eq_of_le quotients with apart | together
  · calc
      roundHalfEven low denominator ≤ low / denominator + 1 := roundHalfEven_le_div_add_one _ _
      _ ≤ high / denominator := apart
      _ ≤ roundHalfEven high denominator := div_le_roundHalfEven _ _
  · -- With one quotient the greater number has the greater remainder.
    have remainders : low % denominator ≤ high % denominator := by
      have lowParts := Nat.div_add_mod low denominator
      have highParts := Nat.div_add_mod high denominator
      rw [← together] at highParts
      omega
    simp only [roundHalfEven, ← together]
    split_ifs <;> omega

/-- Rounding moves a number by half a step at most. -/
theorem roundHalfEven_distance (numerator : Nat) {denominator : Nat} (positive : 0 < denominator) :
    2 * numerator ≤ 2 * (roundHalfEven numerator denominator * denominator) + denominator ∧
      2 * (roundHalfEven numerator denominator * denominator) ≤ 2 * numerator + denominator := by
  have parts := Nat.div_add_mod numerator denominator
  have remainder := Nat.mod_lt numerator positive
  rw [Nat.mul_comm] at parts
  simp only [roundHalfEven]
  have next : (numerator / denominator + 1) * denominator =
      numerator / denominator * denominator + denominator := Nat.succ_mul _ _
  split_ifs <;> omega

/-! ## Significant places -/

def excess (n : Nat) : Nat := n.log2 - 52

def nearestWhole (n : Nat) : Nat :=
  roundHalfEven n (1 <<< excess n) <<< excess n

theorem unit_pos (n : Nat) : 0 < 1 <<< excess n := by
  rw [Nat.one_shiftLeft]
  exact Nat.two_pow_pos _

/-- A power of two on the grid that a number is rounded to is met exactly. -/
theorem roundHalfEven_power {n places : Nat} (coarse : excess n ≤ places) :
    roundHalfEven (1 <<< places) (1 <<< excess n) <<< excess n = 1 <<< places := by
  have split : 1 <<< places = 2 ^ (places - excess n) * 1 <<< excess n := by
    rw [Nat.one_shiftLeft, Nat.one_shiftLeft, ← Nat.pow_add, Nat.sub_add_cancel coarse]
  rw [split, roundHalfEven_mul _ (unit_pos n), Nat.shiftLeft_eq, Nat.one_shiftLeft]

theorem shiftLeft_eq_mul (n places : Nat) : n <<< places = n * 1 <<< places := by
  rw [Nat.one_shiftLeft, Nat.shiftLeft_eq]

theorem shiftLeft_mono {low high : Nat} (places : Nat) (le : low ≤ high) :
    low <<< places ≤ high <<< places := by
  rw [Nat.shiftLeft_eq, Nat.shiftLeft_eq]
  exact Nat.mul_le_mul_right _ le

theorem nearestWhole_le_power (n : Nat) : nearestWhole n ≤ 1 <<< (n.log2 + 1) := by
  have last : n ≤ 1 <<< (n.log2 + 1) := by
    rw [Nat.one_shiftLeft]
    exact Nat.le_of_lt Nat.lt_log2_self
  calc
    nearestWhole n ≤ roundHalfEven (1 <<< (n.log2 + 1)) (1 <<< excess n) <<< excess n :=
      shiftLeft_mono _ (roundHalfEven_mono _ last)
    _ = 1 <<< (n.log2 + 1) := roundHalfEven_power (by unfold excess; omega)

theorem power_le_nearestWhole {n : Nat} (nonzero : n ≠ 0) : 1 <<< n.log2 ≤ nearestWhole n := by
  have first : 1 <<< n.log2 ≤ n := by
    rw [Nat.one_shiftLeft]
    exact Nat.log2_self_le nonzero
  calc
    1 <<< n.log2 = roundHalfEven (1 <<< n.log2) (1 <<< excess n) <<< excess n :=
      (roundHalfEven_power (by unfold excess; omega)).symm
    _ ≤ nearestWhole n := shiftLeft_mono _ (roundHalfEven_mono _ first)

theorem nearestWhole_mono {low high : Nat} (le : low ≤ high) :
    nearestWhole low ≤ nearestWhole high := by
  by_cases zero : low = 0
  · subst zero
    exact Nat.zero_le _
  have nonzero : high ≠ 0 := by omega
  have binades : low.log2 ≤ high.log2 :=
    (Nat.le_log2 nonzero).mpr (Nat.le_trans (Nat.log2_self_le zero) le)
  rcases Nat.lt_or_eq_of_le binades with apart | together
  · -- A power of two lies between the results of different binades.
    have powers : 1 <<< (low.log2 + 1) ≤ 1 <<< high.log2 := by
      rw [Nat.one_shiftLeft, Nat.one_shiftLeft]
      exact Nat.pow_le_pow_right (by decide) apart
    calc
      nearestWhole low ≤ 1 <<< (low.log2 + 1) := nearestWhole_le_power low
      _ ≤ 1 <<< high.log2 := powers
      _ ≤ nearestWhole high := power_le_nearestWhole nonzero
  · have sameUnit : excess low = excess high := congrArg (· - 52) together
    unfold nearestWhole
    rw [sameUnit]
    exact shiftLeft_mono _ (roundHalfEven_mono _ le)

theorem excess_le {n : Nat} (small : n < 1 <<< 64) : excess n ≤ 11 := by
  rw [Nat.one_shiftLeft] at small
  by_cases zero : n = 0
  · subst zero
    decide
  have places : n.log2 < 64 := (Nat.log2_lt zero).mpr small
  unfold excess
  omega

/-- Rounding moves a whole number of 64 bits by half of its eleven excess places at most. -/
theorem nearestWhole_distance {n : Nat} (small : n < 1 <<< 64) :
    n ≤ nearestWhole n + 1024 ∧ nearestWhole n ≤ n + 1024 := by
  have step : 1 <<< excess n ≤ 2048 := by
    rw [Nat.one_shiftLeft]
    exact Nat.pow_le_pow_right (by decide : 0 < 2) (excess_le small)
  obtain ⟨below, above⟩ := roundHalfEven_distance n (unit_pos n)
  unfold nearestWhole
  rw [shiftLeft_eq_mul]
  omega

/-! ## Integers -/

def nearestInt (value : Int) : Int :=
  if value < 0 then -nearestWhole value.natAbs else nearestWhole value.natAbs

theorem nearestInt_mono {low high : Int} (le : low ≤ high) : nearestInt low ≤ nearestInt high := by
  unfold nearestInt
  by_cases lowSign : low < 0
  · rw [if_pos lowSign]
    by_cases highSign : high < 0
    · have := @nearestWhole_mono high.natAbs low.natAbs (by omega)
      rw [if_pos highSign]
      omega
    · rw [if_neg highSign]
      omega
  · have := @nearestWhole_mono low.natAbs high.natAbs (by omega)
    rw [if_neg lowSign, if_neg (by omega)]
    omega

theorem nearestInt_distance {value : Int} (small : value.natAbs < 1 <<< 64) :
    value ≤ nearestInt value + 1024 ∧ nearestInt value ≤ value + 1024 := by
  have := nearestWhole_distance small
  unfold nearestInt
  split_ifs <;> omega

/-! ## Nearest floats -/

theorem shifted_whole {n : Nat} (nonzero : n ≠ 0) :
    1 <<< 52 ≤ (shifted n 1 ((n.log2 : Int) - 52)).1 / (shifted n 1 ((n.log2 : Int) - 52)).2 := by
  have first := Nat.log2_self_le nonzero
  cases places : (n.log2 : Int) - 52 with
  | ofNat count =>
    have power : n.log2 = 52 + count := by rw [Int.ofNat_eq_natCast] at places; omega
    rw [power, Nat.pow_add] at first
    simp only [shifted, Nat.one_shiftLeft]
    exact (Nat.le_div_iff_mul_le (Nat.two_pow_pos _)).mpr first
  | negSucc count =>
    have power : 52 = n.log2 + (count + 1) := by omega
    simp only [shifted, Nat.div_one, Nat.shiftLeft_eq, Nat.one_mul]
    rw [power, Nat.pow_add]
    exact Nat.mul_le_mul_right _ first

theorem binade_whole {n : Nat} (nonzero : n ≠ 0) : binade n 1 = (n.log2 : Int) - 52 := by
  have guess : (n.log2 : Int) - (Nat.log2 1 : Nat) - 52 = (n.log2 : Int) - 52 := by
    rw [show Nat.log2 1 = 0 from rfl]
    omega
  unfold binade
  simp only [guess]
  rw [if_neg (Nat.not_lt.mpr (shifted_whole nonzero)), if_neg (by omega)]

/-- The mantissa of a whole number, which is worth what is left of the number after rounding. It can
be the first number with one place too many. -/
theorem mantissa_whole (n : Nat) :
    roundHalfEven (shifted n 1 ((n.log2 : Int) - 52)).1 (shifted n 1 ((n.log2 : Int) - 52)).2
        ≤ 1 <<< 53 ∧
      roundHalfEven (shifted n 1 ((n.log2 : Int) - 52)).1 (shifted n 1 ((n.log2 : Int) - 52)).2
          <<< ((n.log2 : Int) - 52 + 1074).toNat =
        nearestWhole n <<< 1074 := by
  have last : n < 2 ^ (n.log2 + 1) := Nat.lt_log2_self
  cases places : (n.log2 : Int) - 52 with
  | ofNat count =>
    rw [Int.ofNat_eq_natCast] at places
    have isExcess : excess n = count := by unfold excess; omega
    have bound := nearestWhole_le_power n
    have power : n.log2 + 1 = 53 + count := by omega
    rw [power, Nat.one_shiftLeft, Nat.pow_add, nearestWhole, isExcess, Nat.shiftLeft_eq] at bound
    constructor
    · simp only [shifted]
      exact Nat.le_of_mul_le_mul_right bound (Nat.two_pow_pos _)
    · have total : ((count : Int) + 1074).toNat = count + 1074 := by omega
      simp only [shifted, Int.ofNat_eq_natCast, total, nearestWhole, isExcess, Nat.shiftLeft_add]
  | negSucc count =>
    have noExcess : excess n = 0 := by unfold excess; omega
    have power : 53 = n.log2 + 1 + (count + 1) := by omega
    have exact (k : Nat) : roundHalfEven k 1 = k := by
      simpa using roundHalfEven_mul k Nat.one_pos
    have kept : nearestWhole n = n := by
      rw [nearestWhole, noExcess]
      exact exact n
    simp only [shifted, exact, kept]
    constructor
    · rw [Nat.one_shiftLeft, Nat.shiftLeft_eq, power, Nat.pow_add 2 (n.log2 + 1)]
      exact Nat.mul_le_mul_right _ (Nat.le_of_lt last)
    · have total : count + 1 + (Int.negSucc count + 1074).toNat = 1074 := by omega
      rw [← Nat.shiftLeft_add, total]

/-- A whole number of 64 bits has a nearest float, which is worth the number rounded. -/
theorem ofRatio?_whole (negative : Bool) {n : Nat} (small : n < 1 <<< 64) :
    ∃ x, ofRatio? negative n 1 = some x ∧ x.negative = negative ∧
      x.magnitude = nearestWhole n <<< 1074 := by
  by_cases zero : n = 0
  · subst zero
    have nothing : nearestWhole 0 = 0 := by decide
    refine ⟨.zero negative, if_pos rfl, rfl, ?_⟩
    rw [nothing, magnitude, Binary64.zero, Nat.zero_shiftLeft, Nat.zero_shiftLeft]
  rw [Nat.one_shiftLeft] at small
  have places : n.log2 < 64 := (Nat.log2_lt zero).mpr small
  have low := Nat.le_trans (shifted_whole zero) (div_le_roundHalfEven _ _)
  obtain ⟨high, worth⟩ := mantissa_whole n
  simp only [ofRatio?, if_neg zero, binade_whole zero]
  generalize roundHalfEven (shifted n 1 ((n.log2 : Int) - 52)).1
    (shifted n 1 ((n.log2 : Int) - 52)).2 = mantissa at low high worth ⊢
  by_cases carries : mantissa = 1 <<< 53
  · have canonical : Canonical (1 <<< 52) ((n.log2 : Int) - 52 + 1) :=
      ⟨by decide, by omega, by omega, .inl (Nat.le_refl _)⟩
    refine ⟨⟨negative, 1 <<< 52, (n.log2 : Int) - 52 + 1, canonical⟩, ?_, rfl, ?_⟩
    · rw [if_pos carries, ofParts?, dif_pos canonical]
    · have total : ((n.log2 : Int) - 52 + 1 + 1074).toNat =
          1 + ((n.log2 : Int) - 52 + 1074).toNat := by omega
      have next : 1 <<< 52 <<< 1 = 1 <<< 53 := by decide
      rw [← worth, carries, magnitude, total, Nat.shiftLeft_add, next]
  · have canonical : Canonical mantissa ((n.log2 : Int) - 52) :=
      ⟨by omega, by omega, by omega, .inl low⟩
    refine ⟨⟨negative, mantissa, (n.log2 : Int) - 52, canonical⟩, ?_, rfl, worth⟩
    rw [if_neg carries, ofParts?, dif_pos canonical]

end LayeredQuery.Number.Binary64
