import LayeredQuery.Proofs.Number.Shortest
import LayeredQuery.Proofs.Number.Whole

/-!
# Signs of zeros

Each finite number has one form, so numbers with one value are the same number, apart from the two
zeros, which differ in their signs.
-/

set_option autoImplicit false

namespace LayeredQuery

open LayeredQuery.Number

namespace Number.Binary64

/-- A float with the sign taken off if it is zero. -/
def plainZero (x : Binary64) : Binary64 :=
  if x.isZero then zero false else x

variable {x y : Binary64}

theorem scaled_eq_zero_iff : x.scaled = 0 ↔ x.isZero = true := by
  have places : 0 < 1 <<< (x.exponent + 1074).toNat := by
    rw [Nat.one_shiftLeft]
    exact Nat.two_pow_pos _
  rw [scaled, magnitude, shiftLeft_eq_mul, isZero, beq_iff_eq]
  constructor
  · intro zero
    have none : x.mantissa * 1 <<< (x.exponent + 1074).toNat = 0 := by
      split at zero <;> omega
    exact (Nat.mul_eq_zero.mp none).resolve_right (by omega)
  · intro zero
    rw [zero, Nat.zero_mul]
    split <;> rfl

theorem scaled_plainZero (x : Binary64) : x.plainZero.scaled = x.scaled := by
  unfold plainZero
  split
  · rename_i zero
    rw [scaled_eq_zero_iff.mpr zero]
    rfl
  · rfl

theorem scaled_eq_iff : x.scaled = y.scaled ↔ x.plainZero = y.plainZero := by
  constructor
  · intro same
    by_cases zero : x.isZero = true
    · have zero' : y.isZero = true :=
        scaled_eq_zero_iff.mp (same.symm.trans (scaled_eq_zero_iff.mpr zero))
      rw [plainZero, plainZero, if_pos zero, if_pos zero']
    · have some : x.scaled ≠ 0 := mt scaled_eq_zero_iff.mp zero
      have some' : y.isZero ≠ true :=
        fun zero' => some (same.trans (scaled_eq_zero_iff.mpr zero'))
      rw [plainZero, plainZero, if_neg zero, if_neg some']
      have parts : x.negative = y.negative ∧ x.magnitude = y.magnitude := by
        unfold scaled at same some
        cases xSign : x.negative <;> cases ySign : y.negative <;>
          simp only [xSign, ySign, if_true, Bool.false_eq_true, if_false] at same some
        · exact ⟨rfl, by omega⟩
        · omega
        · omega
        · exact ⟨rfl, by omega⟩
      exact eq_of_magnitude parts.1 parts.2
  · intro same
    rw [← scaled_plainZero x, same, scaled_plainZero]

theorem order_eq_iff : x.order y = .eq ↔ x.plainZero = y.plainZero := by
  rw [order, Std.compare_eq_iff_eq, scaled_eq_iff]

theorem eq_zero_of_isZero (isZero : x.isZero = true) : x = zero x.negative := by
  obtain ⟨negative, mantissa, exponent, canonical⟩ := x
  obtain rfl : mantissa = 0 := by simpa [Binary64.isZero] using isZero
  obtain rfl : exponent = -1074 := by
    obtain ⟨_, _, _, normal⟩ := canonical
    exact normal.resolve_left (by decide)
  rfl

theorem isZero_plainZero (x : Binary64) : x.plainZero.isZero = x.isZero := by
  unfold plainZero
  split
  · rename_i zero
    rw [zero]
    rfl
  · rfl

/-- Numbers that are equal are the same, or both are zeros and just one of them has a sign. -/
theorem eq_or_zeros_of_order (equal : x.order y = .eq) :
    x = y ∨ ∃ negative, x = zero negative ∧ y = zero !negative := by
  have samePlain := order_eq_iff.mp equal
  have bothZero : x.isZero = y.isZero := by
    rw [← isZero_plainZero, samePlain, isZero_plainZero]
  cases isZero : x.isZero with
  | false =>
    have isZero' := bothZero.symm.trans isZero
    exact .inl (by simpa [plainZero, isZero, isZero'] using samePlain)
  | true =>
    have isZero' := bothZero.symm.trans isZero
    rw [eq_zero_of_isZero isZero, eq_zero_of_isZero isZero']
    cases sign : x.negative <;> cases sign' : y.negative
    · exact .inl rfl
    · exact .inr ⟨false, rfl, rfl⟩
    · exact .inr ⟨true, rfl, rfl⟩
    · exact .inl rfl

end Number.Binary64

end LayeredQuery
