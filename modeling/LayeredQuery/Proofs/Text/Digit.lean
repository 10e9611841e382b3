import Mathlib.Tactic.IntervalCases
import LayeredQuery.Text.Digit

/-!
# Numbers as decimal digits

Writing a number with a fixed count of digits keeps its remainder by the power of ten, so a number
that is short enough is read back. Zeros at the end of digits scale what they write.
-/

set_option autoImplicit false

namespace LayeredQuery.Text

theorem isDigit_digitChar {n : Nat} (small : n < 10) : n.digitChar.isDigit = true := by
  interval_cases n <;> rfl

theorem decimalValue_digitChar {n : Nat} (small : n < 10) : decimalValue n.digitChar = n := by
  interval_cases n <;> rfl

/-! ## Reading -/

theorem decimal_append (front back : List Char) :
    decimal (front ++ back) =
      back.foldl (fun value c => value * 10 + decimalValue c) (decimal front) :=
  List.foldl_append

theorem decimal_append_zeros (digits : List Char) (count : Nat) :
    decimal (digits ++ List.replicate count '0') = decimal digits * 10 ^ count := by
  induction count with
  | zero => simp
  | succ count ih =>
    rw [List.replicate_succ', ← List.append_assoc, decimal_append, ih, List.foldl_cons,
      List.foldl_nil, Nat.pow_succ, ← Nat.mul_assoc]
    rfl

theorem decimal_eq_ofDigitChars (digits : List Char) :
    decimal digits = Nat.ofDigitChars 10 digits 0 := by
  simp only [decimal, Nat.ofDigitChars_eq_foldl, Nat.mul_comm 10, decimalValue]

theorem decimal_toDigits (n : Nat) : decimal (Nat.toDigits 10 n) = n := by
  rw [decimal_eq_ofDigitChars, Nat.ofDigitChars_ten_toDigits]

theorem decimal_zeros_append (count : Nat) (digits : List Char) :
    decimal (List.replicate count '0' ++ digits) = decimal digits := by
  rw [decimal_append, decimal_eq_ofDigitChars (List.replicate count '0'),
    Nat.ofDigitChars_replicate_zero, Nat.mul_zero]
  rfl

/-! ## Writing -/

theorem length_fixedWidth (base width n : Nat) : (fixedWidth base width n).length = width := by
  induction width generalizing n with
  | zero => rfl
  | succ width ih => rw [fixedWidth, List.length_append, ih, List.length_singleton]

theorem digitChar_injective : ∀ n < 16, ∀ m < 16, n.digitChar = m.digitChar → n = m := by
  decide

theorem fixedWidth_injective {base : Nat} (some : 0 < base) (few : base ≤ 16) {width : Nat} :
    ∀ {n m : Nat}, n < base ^ width → m < base ^ width →
      fixedWidth base width n = fixedWidth base width m → n = m := by
  induction width with
  | zero =>
    intro n m small small' _
    rw [Nat.pow_zero] at small small'
    omega
  | succ width ih =>
    intro n m small small' same
    obtain ⟨front, last⟩ := List.append_inj' same rfl
    have digits : n % base = m % base :=
      digitChar_injective _ ((Nat.mod_lt n some).trans_le few) _ ((Nat.mod_lt m some).trans_le few)
        (List.cons.inj last).1
    rw [Nat.pow_succ'] at small small'
    have rest := ih (Nat.div_lt_of_lt_mul small) (Nat.div_lt_of_lt_mul small') front
    rw [← Nat.div_add_mod n base, rest, digits, Nat.div_add_mod]

theorem isDigit_of_mem_fixedWidth {width n : Nat} :
    ∀ c ∈ fixedWidth 10 width n, c.isDigit = true := by
  induction width generalizing n with
  | zero => intro c member; cases member
  | succ width ih =>
    intro c member
    rcases List.mem_append.mp member with front | last
    · exact ih c front
    · rw [List.mem_singleton.mp last]
      exact isDigit_digitChar (Nat.mod_lt _ (by decide))

theorem decimal_fixedWidth (width n : Nat) : decimal (fixedWidth 10 width n) = n % 10 ^ width := by
  induction width generalizing n with
  | zero => rw [Nat.pow_zero, Nat.mod_one]; rfl
  | succ width ih =>
    rw [fixedWidth, decimal_append, ih, List.foldl_cons, List.foldl_nil,
      decimalValue_digitChar (Nat.mod_lt _ (by decide)), Nat.pow_succ, Nat.mul_comm (10 ^ width),
      Nat.mod_mul]
    omega

end LayeredQuery.Text
