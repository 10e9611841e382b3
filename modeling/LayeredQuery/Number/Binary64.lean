/-!
# Binary floating-point numbers of 64 bits

A finite number is a sign, a mantissa below `2 ^ 53` and a power of two between `-1074` and `971`.
The form is canonical: the mantissa fills its 53 bits unless the exponent is already the least.
Two zeros differ in their sign and compare equal, so order and equality go by `scaled`, the value
as a whole number of the least positive number `2 ^ (-1074)`.

Rounding is to the nearest number, ties to the even mantissa. A quotient that rounds beyond the
greatest finite number has no result.
-/

set_option autoImplicit false

namespace LayeredQuery.Number

/-- The one form in which a mantissa and an exponent are kept. -/
def Canonical (mantissa : Nat) (exponent : Int) : Prop :=
  mantissa < 1 <<< 53 ∧ -1074 ≤ exponent ∧ exponent ≤ 971 ∧
    (1 <<< 52 ≤ mantissa ∨ exponent = -1074)

instance (mantissa : Nat) (exponent : Int) : Decidable (Canonical mantissa exponent) := by
  unfold Canonical
  infer_instance

structure Binary64 where
  negative : Bool
  mantissa : Nat
  exponent : Int
  canonical : Canonical mantissa exponent
deriving DecidableEq

namespace Binary64

def ofParts? (negative : Bool) (mantissa : Nat) (exponent : Int) : Option Binary64 :=
  if h : Canonical mantissa exponent then some ⟨negative, mantissa, exponent, h⟩ else none

def zero (negative : Bool) : Binary64 :=
  ⟨negative, 0, -1074, by decide⟩

def isZero (x : Binary64) : Bool :=
  x.mantissa == 0

/-! ## Order -/

def magnitude (x : Binary64) : Nat :=
  x.mantissa <<< (x.exponent + 1074).toNat

def scaled (x : Binary64) : Int :=
  if x.negative then -(x.magnitude : Int) else x.magnitude

def order (x y : Binary64) : Ordering :=
  compare x.scaled y.scaled

/-! ## Rounding -/

/-- The whole number nearest to a quotient, the even one of two that are equally near. -/
def roundHalfEven (numerator denominator : Nat) : Nat :=
  let quotient := numerator / denominator
  let remainder := numerator % denominator
  if 2 * remainder < denominator then quotient
  else if denominator < 2 * remainder then quotient + 1
  else if quotient % 2 = 0 then quotient
  else quotient + 1

def shifted (numerator denominator : Nat) : Int → Nat × Nat
  | .ofNat n => (numerator, denominator <<< n)
  | .negSucc n => (numerator <<< (n + 1), denominator)

/-- The exponent at which a positive ratio has a mantissa of 53 bits, or the least one. -/
def binade (numerator denominator : Nat) : Int :=
  let guess : Int := (Nat.log2 numerator : Int) - Nat.log2 denominator - 52
  let ratio := shifted numerator denominator guess
  let exponent := if ratio.1 / ratio.2 < 1 <<< 52 then guess - 1 else guess
  if exponent < -1074 then -1074 else exponent

/-- The number nearest to a ratio with a positive denominator. -/
def ofRatio? (negative : Bool) (numerator denominator : Nat) : Option Binary64 :=
  if numerator = 0 then some (zero negative)
  else
    let exponent := binade numerator denominator
    let ratio := shifted numerator denominator exponent
    let mantissa := roundHalfEven ratio.1 ratio.2
    if mantissa = 1 <<< 53 then ofParts? negative (1 <<< 52) (exponent + 1)
    else ofParts? negative mantissa exponent

def ofNat? (n : Nat) : Option Binary64 :=
  ofRatio? false n 1

def negate (x : Binary64) : Binary64 :=
  ⟨!x.negative, x.mantissa, x.exponent, x.canonical⟩

def ratio (mantissa : Nat) : Int → Nat × Nat
  | .ofNat n => (mantissa <<< n, 1)
  | .negSucc n => (mantissa, 1 <<< (n + 1))

def mul? (x y : Binary64) : Option Binary64 :=
  let product := ratio (x.mantissa * y.mantissa) (x.exponent + y.exponent)
  ofRatio? (x.negative != y.negative) product.1 product.2

def div? (x y : Binary64) : Option Binary64 :=
  if y.mantissa = 0 then none
  else
    let quotient := shifted x.mantissa y.mantissa (y.exponent - x.exponent)
    ofRatio? (x.negative != y.negative) quotient.1 quotient.2

/-- The number nearest to `digits · 10 ^ power`. Beyond four hundred places the answer is known
without the arithmetic: nothing that large is finite and nothing that small is not zero. -/
def ofDecimal? (negative : Bool) (digits : Nat) (power : Int) : Option Binary64 :=
  if digits = 0 then some (zero negative)
  else
    let places : Int := (Nat.toDigits 10 digits).length + power
    if 400 < places then none
    else if places < -400 then some (zero negative)
    else
      match power with
      | .ofNat n => ofRatio? negative (digits * Nat.pow 10 n) 1
      | .negSucc n => ofRatio? negative digits (Nat.pow 10 (n + 1))

end Binary64

end LayeredQuery.Number
