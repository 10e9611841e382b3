import LayeredQuery.Proofs.Evaluation.Comparison

/-!
# Order of integers

Two signed integers of 64 bits compare exactly. When one of two integers is beyond them, both are
compared as the floats nearest to them. These never stand in the other order than the integers, so
the comparison can only hold two integers for equal that are not. They then round to one float,
which no two integers do that are more than 2048 apart.
-/

set_option autoImplicit false

namespace LayeredQuery

open LayeredQuery.Number

namespace Json

/-- The order that two integers are held to be in. -/
def integerOrder (x y : Int) : Ordering :=
  if x < 0x8000000000000000 ∧ y < 0x8000000000000000 then compare x y
  else compare (Binary64.nearestInt x) (Binary64.nearestInt y)

/-! ## Numbers that are integers -/

theorem compare_mul_of_pos (x y : Int) {unit : Int} (positive : 0 < unit) :
    compare (x * unit) (y * unit) = compare x y := by
  rcases Int.lt_trichotomy x y with less | rfl | greater
  · rw [Int.compare_eq_lt.mpr less,
      Int.compare_eq_lt.mpr (Int.mul_lt_mul_of_pos_right less positive)]
  · rw [Int.compare_eq_eq.mpr rfl, Int.compare_eq_eq.mpr rfl]
  · rw [Int.compare_eq_gt.mpr greater,
      Int.compare_eq_gt.mpr (Int.mul_lt_mul_of_pos_right greater positive)]

theorem orderNumbers?_int {x y : Int}
    (xInRange : -0x8000000000000000 ≤ x ∧ x < 0x10000000000000000)
    (yInRange : -0x8000000000000000 ≤ y ∧ y < 0x10000000000000000) :
    orderNumbers? (.int x xInRange) (.int y yInRange) = some (integerOrder x y) := by
  have unit : 0 < ((1 <<< 1074 : Nat) : Int) := Int.natCast_pos.mpr (by decide +kernel)
  rw [orderNumbers?_eq, approximate_int, approximate_int, compare_mul_of_pos _ _ unit,
    integerOrder]
  by_cases xSigned : x < 0x8000000000000000
  · by_cases ySigned : y < 0x8000000000000000 <;> simp [signed?, xSigned, ySigned]
  · simp [signed?, xSigned]

/-! ## Rounding -/

/-- The order of rounded integers is theirs, unless they have become one. -/
theorem compare_nearestInt {x y : Int} :
    compare (Binary64.nearestInt x) (Binary64.nearestInt y) =
      if Binary64.nearestInt x = Binary64.nearestInt y then .eq else compare x y := by
  by_cases one : Binary64.nearestInt x = Binary64.nearestInt y
  · rw [if_pos one]
    exact Int.compare_eq_eq.mpr one
  rw [if_neg one]
  -- Rounding keeps the order, and what is left apart is apart the same way.
  rcases Int.lt_trichotomy x y with less | rfl | greater
  · have le := Binary64.nearestInt_mono (Int.le_of_lt less)
    rw [Int.compare_eq_lt.mpr less, Int.compare_eq_lt.mpr (Int.lt_iff_le_and_ne.mpr ⟨le, one⟩)]
  · exact absurd rfl one
  · have le := Binary64.nearestInt_mono (Int.le_of_lt greater)
    rw [Int.compare_eq_gt.mpr greater,
      Int.compare_eq_gt.mpr (Int.lt_iff_le_and_ne.mpr ⟨le, Ne.symm one⟩)]

theorem integerOrder_eq_compare_iff {x y : Int} :
    integerOrder x y = compare x y ↔
      (x < 0x8000000000000000 ∧ y < 0x8000000000000000) ∨ x = y ∨
        Binary64.nearestInt x ≠ Binary64.nearestInt y := by
  unfold integerOrder
  by_cases signed : x < 0x8000000000000000 ∧ y < 0x8000000000000000
  · simp [signed]
  rw [if_neg signed, compare_nearestInt]
  by_cases one : Binary64.nearestInt x = Binary64.nearestInt y
  · rw [if_pos one, eq_comm, Int.compare_eq_eq]
    simp [signed, one]
  · simp [one]

theorem integerOrder_eq_of_ne {x y : Int} (wrong : integerOrder x y ≠ compare x y) :
    integerOrder x y = .eq := by
  unfold integerOrder at wrong ⊢
  split at wrong
  · exact absurd rfl wrong
  · rename_i signed
    rw [if_neg signed]
    rw [compare_nearestInt] at wrong ⊢
    split at wrong
    · rename_i one
      exact if_pos one
    · exact absurd rfl wrong

/-- Two integers that are far enough apart do not round to one float. -/
theorem nearestInt_ne_of_apart {x y : Int}
    (xInRange : -0x8000000000000000 ≤ x ∧ x < 0x10000000000000000)
    (yInRange : -0x8000000000000000 ≤ y ∧ y < 0x10000000000000000)
    (apart : 2048 < (x - y).natAbs) : Binary64.nearestInt x ≠ Binary64.nearestInt y := by
  have places : (1 <<< 64 : Nat) = 0x10000000000000000 := by decide
  have nearX := @Binary64.nearestInt_distance x (by omega)
  have nearY := @Binary64.nearestInt_distance y (by omega)
  omega

/-! ## Comparisons -/

/-- The comparisons of two integers go by one order. It is that of the integers exactly if both are
signed ones of 64 bits, or they are equal, or they round to two floats, as all do that are more than
2048 apart. Otherwise the integers are held for equal. -/
theorem comparesAs_integers {x y : Int}
    (xInRange : -0x8000000000000000 ≤ x ∧ x < 0x10000000000000000)
    (yInRange : -0x8000000000000000 ≤ y ∧ y < 0x10000000000000000) :
    ComparesAs (.number (.int x xInRange)) (.number (.int y yInRange)) (integerOrder x y) ∧
      (integerOrder x y = compare x y ↔
        (x < 0x8000000000000000 ∧ y < 0x8000000000000000) ∨ x = y ∨
          Binary64.nearestInt x ≠ Binary64.nearestInt y) ∧
      (2048 < (x - y).natAbs → integerOrder x y = compare x y) ∧
      (integerOrder x y ≠ compare x y → integerOrder x y = .eq) := by
  refine ⟨comparesAs_of_orderNumbers? (orderNumbers?_int xInRange yInRange),
    integerOrder_eq_compare_iff, fun apart => ?_, integerOrder_eq_of_ne⟩
  exact integerOrder_eq_compare_iff.mpr
    (.inr (.inr (nearestInt_ne_of_apart xInRange yInRange apart)))

theorem comparesAs_integers_apart :
    ComparesAs (.number (.int 9223372036854775808 (by decide)))
      (.number (.int 9223372036854779904 (by decide))) .lt := by
  obtain ⟨compares, _, exact, _⟩ :=
    @comparesAs_integers 9223372036854775808 9223372036854779904 (by decide) (by decide)
  rw [exact (by decide)] at compares
  exact compares

/-- It is held to be equal to the next one. -/
theorem comparesAs_next_integer :
    ComparesAs (.number (.int 9223372036854775808 (by decide)))
      (.number (.int 9223372036854775809 (by decide))) .eq :=
  comparesAs_of_orderNumbers? (by decide +kernel)

end Json

end LayeredQuery
