import LayeredQuery.Number.Binary64

/-!
# Shortest decimal digits

The shortest digits of a positive number are the fewest significant decimal digits that read back
as it, and among those the nearest to it. A decimal reads back as the number exactly when it lies
in the interval of values that round to it; the ends belong to the interval when the mantissa is
even. If a grid of decimals meets that interval, then one of the number's two neighbours on the
grid lies in it, so only those two are looked at, for one digit, two digits and so on up to
seventeen, which always suffice.
-/

set_option autoImplicit false

namespace LayeredQuery.Number

/-- Which of two equally near decimals is taken. -/
inductive Tie
  | toEven
  | up
deriving DecidableEq

/-- Decimal digits `d₀ d₁ d₂ …` standing for `d₀.d₁d₂… · 10 ^ exponent`. -/
structure Digits where
  digits : List Char
  exponent : Int
deriving DecidableEq

namespace Digits

/-- The values that round to a number, as four numerators over one denominator. -/
structure Interval where
  low : Nat
  value : Nat
  high : Nat
  denominator : Nat
  closed : Bool

/-- Half a unit of the last place on either side, a quarter below a power of two. -/
def interval (x : Binary64) : Interval :=
  let below := if x.mantissa = 1 <<< 52 ∧ -1074 < x.exponent then 1 else 2
  let scale := Binary64.ratio 1 (x.exponent - 2)
  ⟨(4 * x.mantissa - below) * scale.1, 4 * x.mantissa * scale.1, (4 * x.mantissa + 2) * scale.1,
    scale.2, x.mantissa % 2 = 0⟩

def Interval.contains (i : Interval) (numerator denominator : Nat) : Bool :=
  let low := i.low * denominator
  let point := numerator * i.denominator
  let high := i.high * denominator
  if i.closed then low ≤ point && point ≤ high else low < point && point < high

/-- The decimal exponent of the first digit of a number of at least `10 ^ (-400)`. -/
def leadingExponent (i : Interval) : Int :=
  (Nat.toDigits 10 (i.value * Nat.pow 10 400 / i.denominator)).length - 401

def powerOfTen : Int → Nat × Nat
  | .ofNat n => (Nat.pow 10 n, 1)
  | .negSucc n => (1, Nat.pow 10 (n + 1))

/-- The better of the two neighbours on the grid of multiples of `10 ^ power`, if one reads
back. -/
def onGrid? (tie : Tie) (i : Interval) (power : Int) : Option Nat :=
  let unit := powerOfTen power
  let numerator := i.value * unit.2
  let denominator := i.denominator * unit.1
  let lower := numerator / denominator
  let remainder := numerator % denominator
  let lowerHits := i.contains (lower * unit.1) unit.2
  let upperHits := i.contains ((lower + 1) * unit.1) unit.2
  if lowerHits && upperHits then
    if 2 * remainder < denominator then some lower
    else if denominator < 2 * remainder then some (lower + 1)
    else
      match tie with
      | .up => some (lower + 1)
      | .toEven => if lower % 2 = 0 then some lower else some (lower + 1)
  else if lowerHits then some lower
  else if upperHits then some (lower + 1)
  else none

def withoutTrailingZeros (digits : List Char) : List Char :=
  (digits.reverse.dropWhile (· = '0')).reverse

def ofPoint (point : Nat) (power : Int) : Digits :=
  let digits := Nat.toDigits 10 point
  ⟨withoutTrailingZeros digits, power + digits.length - 1⟩

/-- Looks for a hit with `count` digits and then with one more, `fuel` times. -/
def search (tie : Tie) (i : Interval) (leading : Int) : Nat → Nat → Digits
  | 0, count => ofPoint (i.value * Nat.pow 10 count / i.denominator) (-count)
  | fuel + 1, count =>
    match onGrid? tie i (leading - count + 1) with
    | some point => ofPoint point (leading - count + 1)
    | none => search tie i leading fuel (count + 1)

def shortest (tie : Tie) (x : Binary64) : Digits :=
  let i := interval x
  search tie i (leadingExponent i) 17 1

end Digits

end LayeredQuery.Number
