import LayeredQuery.Number.Layout
import LayeredQuery.Proofs.Number.Shortest

/-!
# Laid out digits are read back

A decimal text has digits with a point among them or none, and perhaps a power of ten after an `e`.
Wherever a layout puts the point, and whether it writes a power or zeros, the text names the number
that its digits stand for. So different floats have different texts in every layout.
-/

set_option autoImplicit false

namespace LayeredQuery.Number

open LayeredQuery.Text

/-! ## Reading decimal texts -/

def coefficient (text : List Char) : ℚ :=
  decimal (text.filter (· ≠ '.')) * 10 ^ (-((text.dropWhile (· ≠ '.')).length - 1 : Nat) : Int)

def writtenPower : List Char → Int
  | 'e' :: '+' :: digits => decimal digits
  | 'e' :: '-' :: digits => -decimal digits
  | _ => 0

def named (text : List Char) : ℚ :=
  coefficient (text.takeWhile (· ≠ 'e')) * 10 ^ writtenPower (text.dropWhile (· ≠ 'e'))

section

variable {whole fraction front : List Char}

theorem ne_of_isDigit {c mark : Char} (digit : c.isDigit = true) (isMark : mark.isDigit = false) :
    c ≠ mark := by
  rintro rfl
  rw [digit] at isMark
  cases isMark

theorem filter_of_digits (digits : ∀ c ∈ whole, c.isDigit = true) :
    whole.filter (· ≠ '.') = whole :=
  List.filter_eq_self.mpr fun c member => decide_eq_true (ne_of_isDigit (digits c member) rfl)

theorem dropWhile_of_digits (digits : ∀ c ∈ whole, c.isDigit = true) (rest : List Char) :
    (whole ++ rest).dropWhile (· ≠ '.') = rest.dropWhile (· ≠ '.') :=
  List.dropWhile_append_of_pos fun c member =>
    decide_eq_true (ne_of_isDigit (digits c member) rfl)

theorem coefficient_whole (digits : ∀ c ∈ whole, c.isDigit = true) :
    coefficient whole = decimal whole := by
  have noPoint := dropWhile_of_digits digits []
  rw [List.append_nil] at noPoint
  rw [coefficient, noPoint, filter_of_digits digits]
  simp

theorem coefficient_point (digits : ∀ c ∈ whole, c.isDigit = true)
    (digits' : ∀ c ∈ fraction, c.isDigit = true) :
    coefficient (whole ++ '.' :: fraction) =
      decimal (whole ++ fraction) * 10 ^ (-fraction.length : Int) := by
  have point : (whole ++ '.' :: fraction).dropWhile (· ≠ '.') = '.' :: fraction :=
    (dropWhile_of_digits digits _).trans rfl
  rw [coefficient, point, List.filter_append, filter_of_digits digits,
    List.filter_cons_of_neg (by decide), filter_of_digits digits', List.length_cons,
    Nat.add_sub_cancel]

theorem named_coefficient (plain : 'e' ∉ front) : named front = coefficient front := by
  have each : ∀ c ∈ front, decide (c ≠ 'e') = true := fun c member =>
    decide_eq_true fun same => plain (same ▸ member)
  rw [named, List.takeWhile_eq_self_iff.mpr each, List.dropWhile_eq_nil_iff.mpr each]
  simp [writtenPower]

theorem writtenPower_writeExponent (exponent : Int) :
    writtenPower (Layout.writeExponent exponent) = exponent := by
  cases exponent with
  | ofNat n => exact congrArg Int.ofNat (decimal_toDigits n)
  | negSucc n => exact congrArg (fun n : Nat => -(n : Int)) (decimal_toDigits (n + 1))

theorem named_exponent (plain : 'e' ∉ front) (exponent : Int) :
    named (front ++ Layout.writeExponent exponent) = coefficient front * 10 ^ exponent := by
  have each : ∀ c ∈ front, decide (c ≠ 'e') = true := fun c member =>
    decide_eq_true fun same => plain (same ▸ member)
  have marked : (Layout.writeExponent exponent).takeWhile (· ≠ 'e') = [] ∧
      (Layout.writeExponent exponent).dropWhile (· ≠ 'e') = Layout.writeExponent exponent := by
    cases exponent <;> exact ⟨rfl, rfl⟩
  rw [named, List.takeWhile_append_of_pos each, List.dropWhile_append_of_pos each, marked.1,
    marked.2, List.append_nil, writtenPower_writeExponent]

theorem e_notMem_whole (digits : ∀ c ∈ whole, c.isDigit = true) : 'e' ∉ whole :=
  fun member => (ne_of_isDigit (digits 'e' member) rfl) rfl

theorem e_notMem_point (digits : ∀ c ∈ whole, c.isDigit = true)
    (digits' : ∀ c ∈ fraction, c.isDigit = true) : 'e' ∉ whole ++ '.' :: fraction := by
  rw [List.mem_append, List.mem_cons, not_or, not_or]
  exact ⟨e_notMem_whole digits, by decide, e_notMem_whole digits'⟩

theorem named_whole (digits : ∀ c ∈ whole, c.isDigit = true) : named whole = decimal whole := by
  rw [named_coefficient (e_notMem_whole digits), coefficient_whole digits]

theorem named_point (digits : ∀ c ∈ whole, c.isDigit = true)
    (digits' : ∀ c ∈ fraction, c.isDigit = true) :
    named (whole ++ '.' :: fraction) =
      decimal (whole ++ fraction) * 10 ^ (-fraction.length : Int) := by
  rw [named_coefficient (e_notMem_point digits digits'), coefficient_point digits digits']

end

namespace Layout

variable {layout : Layout} {d : Digits} {x y : Binary64}

/-! ## Layouts -/

theorem isDigit_of_mem_zeros {count : Nat} : ∀ c ∈ zeros count, c.isDigit = true := by
  intro c member
  rw [List.eq_of_mem_replicate member]
  rfl

theorem named_writePositional (layout : Layout) (digits : ∀ c ∈ d.digits, c.isDigit = true) :
    named (layout.writePositional d) = d.value := by
  obtain ⟨digits', exponent⟩ := d
  unfold writePositional Digits.value
  cases exponent with
  | negSucc n =>
    have fraction : ∀ c ∈ zeros n ++ digits', c.isDigit = true :=
      List.forall_mem_append.mpr ⟨isDigit_of_mem_zeros, digits⟩
    have zero : ∀ c ∈ ['0'], c.isDigit = true := @isDigit_of_mem_zeros 1
    have text : ['0', '.'] ++ zeros n ++ digits' = ['0'] ++ '.' :: (zeros n ++ digits') := rfl
    have read : decimal (['0'] ++ (zeros n ++ digits')) = decimal digits' :=
      decimal_zeros_append (n + 1) digits'
    have length : (zeros n ++ digits').length = n + digits'.length := by
      rw [List.length_append, zeros, List.length_replicate]
    simp only [text]
    rw [named_point zero fraction, read, length]
    congr 2
    omega
  | ofNat n =>
    simp only [Int.ofNat_eq_natCast]
    split
    · rename_i short
      have whole : ∀ c ∈ digits' ++ zeros (n + 1 - digits'.length), c.isDigit = true :=
        List.forall_mem_append.mpr ⟨digits, isDigit_of_mem_zeros⟩
      have read := decimal_append_zeros digits' (n + 1 - digits'.length)
      have power : (n : Int) + 1 - digits'.length = (n + 1 - digits'.length : Nat) := by omega
      cases layout.wholeFraction with
      | false =>
        simp only [Bool.false_eq_true, if_false, List.append_nil]
        rw [named_whole whole, zeros, read, power, zpow_natCast, Nat.cast_mul, Nat.cast_pow,
          Nat.cast_ofNat]
      | true =>
        have zero : ∀ c ∈ ['0'], c.isDigit = true := @isDigit_of_mem_zeros 1
        have once : decimal (digits' ++ zeros (n + 1 - digits'.length) ++ ['0']) =
            decimal (digits' ++ zeros (n + 1 - digits'.length)) * 10 ^ 1 :=
          decimal_append_zeros _ 1
        have tenth : (10 : ℚ) ^ (-(1 : Nat) : Int) = 10⁻¹ := by norm_num
        simp only [if_true]
        rw [named_point whole zero, List.length_singleton, tenth, once, zeros, read, power,
          zpow_natCast]
        push_cast
        ring
    · rename_i long
      have whole : ∀ c ∈ digits'.take (n + 1), c.isDigit = true := fun c member =>
        digits c (List.mem_of_mem_take member)
      have fraction : ∀ c ∈ digits'.drop (n + 1), c.isDigit = true := fun c member =>
        digits c (List.mem_of_mem_drop member)
      rw [List.append_assoc, List.singleton_append, named_point whole fraction,
        List.take_append_drop, List.length_drop]
      congr 2
      omega

theorem named_writeScientific (digits : ∀ c ∈ d.digits, c.isDigit = true) (some : d.digits ≠ []) :
    named (writeScientific d) = d.value := by
  obtain ⟨digits', exponent⟩ := d
  unfold writeScientific Digits.value
  match digits', some with
  | [digit], _ =>
    have whole : ∀ c ∈ [digit], c.isDigit = true := digits
    simp only
    rw [← List.singleton_append, named_exponent (e_notMem_whole whole), coefficient_whole whole]
    simp
  | digit :: next :: rest, _ =>
    have whole : ∀ c ∈ [digit], c.isDigit = true := by
      simpa using digits digit List.mem_cons_self
    have fraction : ∀ c ∈ next :: rest, c.isDigit = true := fun c member =>
      digits c (List.mem_cons_of_mem _ member)
    have text : digit :: '.' :: (next :: rest) ++ writeExponent exponent =
        ([digit] ++ '.' :: (next :: rest)) ++ writeExponent exponent := rfl
    simp only [text]
    rw [named_exponent (e_notMem_point whole fraction), coefficient_point whole fraction, mul_assoc,
      ← zpow_add₀ (by norm_num), List.singleton_append]
    congr 2
    rw [List.length_cons (a := digit)]
    omega

def digitsOf (tie : Tie) (x : Binary64) : Digits :=
  if x.isZero then ⟨['0'], 0⟩ else Digits.shortest tie x

theorem writeMagnitude_eq (layout : Layout) (x : Binary64) :
    layout.writeMagnitude x =
      if layout.positional (digitsOf layout.tie x).exponent then
        layout.writePositional (digitsOf layout.tie x)
      else writeScientific (digitsOf layout.tie x) := rfl

/-- The digits of a float stand for a number that rounds to it, and there are some. -/
theorem digitsOf_roundsTo (tie : Tie) (x : Binary64) :
    Binary64.RoundsTo (digitsOf tie x).value x ∧
      (∀ c ∈ (digitsOf tie x).digits, c.isDigit = true) ∧ (digitsOf tie x).digits ≠ [] := by
  unfold digitsOf
  by_cases zero : x.mantissa = 0
  · have isZero : x.isZero = true := beq_iff_eq.mpr zero
    have nothing : Digits.value ⟨['0'], 0⟩ = x.worth := by
      rw [Binary64.worth, zero]
      simp [Digits.value, decimal, decimalValue]
    rw [if_pos isZero, nothing]
    exact ⟨x.roundsTo_worth, @isDigit_of_mem_zeros 1, List.cons_ne_nil _ _⟩
  · have isZero : ¬x.isZero = true := fun isZero => zero (beq_iff_eq.mp isZero)
    obtain ⟨rounds, digits⟩ := Digits.shortest_roundsTo tie (Nat.pos_of_ne_zero zero)
    rw [if_neg isZero]
    refine ⟨rounds, digits, fun none => ?_⟩
    have low := rounds.low
    have narrow := x.quartersBelow_le
    have positive : (0 : ℚ) < (4 * x.mantissa - x.quartersBelow : Nat) := by
      exact_mod_cast (by omega : 0 < 4 * x.mantissa - x.quartersBelow)
    rw [Digits.value, none, show decimal [] = 0 from rfl, Nat.cast_zero, zero_mul,
      Binary64.lowEnd] at low
    exact absurd (mul_pos positive x.quarter_pos) (not_lt.mpr low)

theorem roundsTo_named (layout : Layout) (x : Binary64) :
    Binary64.RoundsTo (named (layout.writeMagnitude x)) x := by
  obtain ⟨rounds, digits, some⟩ := digitsOf_roundsTo layout.tie x
  rw [writeMagnitude_eq]
  split
  · rw [named_writePositional layout digits]
    exact rounds
  · rw [named_writeScientific digits some]
    exact rounds

theorem writeMagnitude_head (layout : Layout) (x : Binary64) :
    ∃ c rest, layout.writeMagnitude x = c :: rest ∧ c.isDigit = true := by
  obtain ⟨_, digits, some⟩ := digitsOf_roundsTo layout.tie x
  rw [writeMagnitude_eq]
  obtain ⟨first, others, cons⟩ := List.exists_cons_of_ne_nil some
  have digit : first.isDigit = true := digits first (cons ▸ List.mem_cons_self)
  split
  · unfold writePositional
    simp only [cons]
    split
    · exact ⟨'0', _, rfl, rfl⟩
    · split
      · exact ⟨first, _, rfl, digit⟩
      · exact ⟨first, _, rfl, digit⟩
  · unfold writeScientific
    rw [cons]
    cases others with
    | nil => exact ⟨first, _, rfl, digit⟩
    | cons second others => exact ⟨first, _, rfl, digit⟩

/-- Different floats have different texts. -/
theorem write_injective (layout : Layout) : Function.Injective layout.write := by
  intro x y same
  have same := String.ofList_injective same
  obtain ⟨c, rest, xHead, xDigit⟩ := layout.writeMagnitude_head x
  obtain ⟨c', rest', yHead, yDigit⟩ := layout.writeMagnitude_head y
  have parts : x.negative = y.negative ∧ layout.writeMagnitude x = layout.writeMagnitude y := by
    cases xSign : x.negative <;> cases ySign : y.negative <;>
      simp only [xSign, ySign, if_true, Bool.false_eq_true, if_false] at same
    · exact ⟨rfl, same⟩
    · rw [xHead, List.cons.injEq] at same
      rw [same.1] at xDigit
      cases xDigit
    · rw [yHead, List.cons.injEq] at same
      rw [← same.1] at yDigit
      cases yDigit
    · exact ⟨rfl, List.tail_eq_of_cons_eq same⟩
  obtain ⟨sign, magnitude⟩ := parts
  have rounds := layout.roundsTo_named y
  rw [← magnitude] at rounds
  exact Binary64.eq_of_roundsTo sign (layout.roundsTo_named x) rounds

/-! ## Characters -/

def isNumeralChar (c : Char) : Bool :=
  c.isDigit || c = '-' || c = '+' || c = '.' || c = 'e'

theorem isNumeralChar_of_isDigit {c : Char} (digit : c.isDigit = true) :
    isNumeralChar c = true := by
  unfold isNumeralChar
  rw [digit]
  rfl

theorem isNumeralChar_of_mem_writeExponent (exponent : Int) :
    ∀ c ∈ writeExponent exponent, isNumeralChar c = true := by
  have digits (n : Nat) : ∀ c ∈ Nat.toDigits 10 n, isNumeralChar c = true := fun c member =>
    isNumeralChar_of_isDigit (Nat.isDigit_of_mem_toDigits (by decide) (by decide) member)
  cases exponent with
  | ofNat n => exact List.forall_mem_append.mpr ⟨List.all_eq_true.mp rfl, digits n⟩
  | negSucc n => exact List.forall_mem_append.mpr ⟨List.all_eq_true.mp rfl, digits (n + 1)⟩

theorem isNumeralChar_of_mem_write (layout : Layout) (x : Binary64) :
    ∀ c ∈ (layout.write x).toList, isNumeralChar c = true := by
  obtain ⟨_, digits, _⟩ := digitsOf_roundsTo layout.tie x
  have digits : ∀ c ∈ (digitsOf layout.tie x).digits, isNumeralChar c = true := fun c member =>
    isNumeralChar_of_isDigit (digits c member)
  have zeros (count : Nat) : ∀ c ∈ zeros count, isNumeralChar c = true := fun c member =>
    isNumeralChar_of_isDigit (isDigit_of_mem_zeros c member)
  have magnitude : ∀ c ∈ layout.writeMagnitude x, isNumeralChar c = true := by
    rw [writeMagnitude_eq]
    generalize digitsOf layout.tie x = d at digits
    split
    · unfold writePositional
      simp only
      split
      · simp only [List.forall_mem_append]
        exact ⟨⟨List.all_eq_true.mp rfl, zeros _⟩, digits⟩
      · split
        · simp only [List.forall_mem_append]
          refine ⟨⟨digits, zeros _⟩, ?_⟩
          cases layout.wholeFraction <;> exact List.all_eq_true.mp rfl
        · simp only [List.forall_mem_append]
          exact ⟨⟨fun c member => digits c (List.mem_of_mem_take member), List.all_eq_true.mp rfl⟩,
            fun c member => digits c (List.mem_of_mem_drop member)⟩
    · have power := isNumeralChar_of_mem_writeExponent d.exponent
      unfold writeScientific
      split
      · exact fun c member => by cases member
      · rename_i digit single
        rw [single] at digits
        exact List.forall_mem_cons.mpr ⟨digits digit List.mem_cons_self, power⟩
      · rename_i digit rest _ several
        rw [several, List.forall_mem_cons] at digits
        exact List.forall_mem_append.mpr ⟨List.forall_mem_cons.mpr ⟨digits.1,
          List.forall_mem_cons.mpr ⟨rfl, digits.2⟩⟩, power⟩
  unfold write
  rw [String.toList_ofList]
  split
  · exact List.forall_mem_cons.mpr ⟨rfl, magnitude⟩
  · exact magnitude

/-- The text of a float in a document has a point or a power, which no integer has. -/
theorem mark_mem_documentLayout (x : Binary64) :
    '.' ∈ (documentLayout.write x).toList ∨ 'e' ∈ (documentLayout.write x).toList := by
  have inText {c : Char} (member : c ∈ documentLayout.writeMagnitude x) :
      c ∈ (documentLayout.write x).toList := by
    unfold write
    rw [String.toList_ofList]
    split
    · exact List.mem_cons_of_mem _ member
    · exact member
  obtain ⟨_, _, some⟩ := digitsOf_roundsTo documentLayout.tie x
  have found : '.' ∈ documentLayout.writeMagnitude x ∨ 'e' ∈ documentLayout.writeMagnitude x := by
    rw [writeMagnitude_eq]
    generalize digitsOf documentLayout.tie x = d at some
    split
    · left
      have fraction : documentLayout.wholeFraction = true := rfl
      simp only [writePositional, fraction, if_true]
      split
      · simp
      · split <;> simp
    · right
      have power : 'e' ∈ writeExponent d.exponent := by
        cases d.exponent <;> exact List.mem_cons_self
      unfold writeScientific
      split
      · rename_i none
        exact absurd none some
      · exact List.mem_cons_of_mem _ power
      · exact List.mem_append_right _ power
  exact found.imp inText inText

end Layout

end LayeredQuery.Number
