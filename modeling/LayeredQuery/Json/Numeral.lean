import LayeredQuery.Number.Binary64
import LayeredQuery.Text.Digit

/-!
# Numerals of a document

A numeral is the text of a number: a sign, whole digits without a needless zero in front, then
perhaps a fraction and perhaps an exponent. Its value is an integer when it has neither and fits
in 64 bits, unsigned when positive and signed when negative; the numeral `-0` is a float.

Every other numeral is a float, found from a significand of at most 64 bits and a power of ten:
the first digit that no longer fits ends the significand, whole digits from there on only raise
the power and decimals from there on are dropped. The significand is rounded to a float, then
multiplied or divided by the float nearest to the power of ten. The result can be off by a unit in
the last place from the number the text names.
-/

set_option autoImplicit false

namespace LayeredQuery.Json
open LayeredQuery.Number

structure Numeral where
  negative : Bool
  whole : List Char
  fraction : Option (List Char)
  /-- Whether the exponent is negative, and its digits. -/
  exponent : Option (Bool × List Char)
deriving DecidableEq

namespace Numeral

/-! ## Grammar -/

def wholeOk : List Char → Bool
  | [] => false
  | ['0'] => true
  | '0' :: _ => false
  | _ => true

def withExponent? (negative : Bool) (whole : List Char) (fraction : Option (List Char)) :
    List Char → Option Numeral
  | [] => some ⟨negative, whole, fraction, none⟩
  | c :: rest =>
    if c = 'e' ∨ c = 'E' then
      (Text.signedDigits? rest).map fun exponent => ⟨negative, whole, fraction, some exponent⟩
    else none

def unsigned? (negative : Bool) (text : List Char) : Option Numeral :=
  let whole := text.takeWhile Char.isDigit
  if wholeOk whole then
    match text.dropWhile Char.isDigit with
    | '.' :: rest =>
      let fraction := rest.takeWhile Char.isDigit
      if fraction.isEmpty then none
      else withExponent? negative whole (some fraction) (rest.dropWhile Char.isDigit)
    | rest => withExponent? negative whole none rest
  else none

def ofText? : List Char → Option Numeral
  | '-' :: rest => unsigned? true rest
  | text => unsigned? false text

/-! ## Value -/

def fits (bound significand digit : Nat) : Bool :=
  significand * 10 + digit ≤ bound

/-- Takes digits into a significand while they fit; the digits left over come back. -/
def accumulate (bound : Nat) (significand : Nat) : List Char → Nat × List Char
  | [] => (significand, [])
  | c :: rest =>
    if fits bound significand (Text.decimalValue c) then
      accumulate bound (significand * 10 + Text.decimalValue c) rest
    else (significand, c :: rest)

def greatestUnsigned : Nat := 0xFFFFFFFFFFFFFFFF

def greatestExponent : Int := 0x7FFFFFFF

def leastExponent : Int := -0x80000000

def clampExponent (exponent : Int) : Int :=
  if exponent < leastExponent then leastExponent
  else if greatestExponent < exponent then greatestExponent
  else exponent

def powerOfTen? (power : Nat) : Option Binary64 :=
  Binary64.ofDecimal? false 1 power

/-- Multiplies by a power of ten, in steps of `10 ^ 308` when the power is below the range of
floats. Three such steps make any significand zero. -/
def timesPowerOfTen? : Nat → Binary64 → Int → Option Binary64
  | 0, value, _ => some value
  | fuel + 1, value, exponent =>
    if 308 < exponent.natAbs then
      if value.isZero then some value
      else if 0 ≤ exponent then none
      else
        match powerOfTen? 308 with
        | none => none
        | some power =>
          match value.div? power with
          | none => none
          | some quotient => timesPowerOfTen? fuel quotient (exponent + 308)
    else
      match powerOfTen? exponent.natAbs with
      | none => none
      | some power => if 0 ≤ exponent then value.mul? power else value.div? power

def signed (negative : Bool) (value : Binary64) : Binary64 :=
  if negative then value.negate else value

def scientific? (negative : Bool) (significand : Nat) (exponent : Int) : Option Binary64 :=
  match Binary64.ofNat? significand with
  | none => none
  | some value => (timesPowerOfTen? 8 value exponent).map (signed negative)

/-- The value of a numeral as a float. An exponent too long for 32 bits makes a significand of
zero, or one with a negative exponent, zero, and has no value otherwise. -/
def float? (numeral : Numeral) : Option Binary64 :=
  let whole := accumulate greatestUnsigned 0 numeral.whole
  let fraction := numeral.fraction.getD []
  let decimals := accumulate greatestUnsigned whole.1 fraction
  let significand := decimals.1
  let start : Int := (whole.2.length : Int) - (fraction.length - decimals.2.length)
  match numeral.exponent with
  | none => scientific? numeral.negative significand start
  | some (negativeExponent, digits) =>
    let exponent := accumulate greatestExponent.toNat 0 digits
    if exponent.2.isEmpty then
      let power : Int := if negativeExponent then start - exponent.1 else start + exponent.1
      scientific? numeral.negative significand (clampExponent power)
    else if significand ≠ 0 ∧ negativeExponent = false then none
    else some (Binary64.zero numeral.negative)

def integer? (numeral : Numeral) : Option Int :=
  match numeral.fraction, numeral.exponent with
  | none, none =>
    let whole := accumulate greatestUnsigned 0 numeral.whole
    if whole.2.isEmpty then
      if numeral.negative then
        if 0 < whole.1 ∧ whole.1 ≤ 0x8000000000000000 then some (-(whole.1 : Int)) else none
      else some whole.1
    else none
  | _, _ => none

end Numeral

end LayeredQuery.Json
