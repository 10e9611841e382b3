import LayeredQuery.Number.Binary64
import LayeredQuery.Text.Digit

/-!
# Floating-point numbers with infinities

A decimal text names a finite number or one of two infinities, which it also reaches when its
value is too large. The text `nan`, which names no number, is told apart from a malformed one.
-/

set_option autoImplicit false

namespace LayeredQuery.Number

inductive Extended
  | finite (value : Binary64)
  | infinite (negative : Bool)
deriving DecidableEq

namespace Extended

def order : Extended → Extended → Ordering
  | .finite x, .finite y => x.order y
  | .finite _, .infinite negative => if negative then .gt else .lt
  | .infinite negative, .finite _ => if negative then .lt else .gt
  | .infinite true, .infinite true => .eq
  | .infinite false, .infinite false => .eq
  | .infinite true, .infinite false => .lt
  | .infinite false, .infinite true => .gt

def ofRounded (negative : Bool) : Option Binary64 → Extended
  | none => .infinite negative
  | some value => .finite value

/-! ## Reading decimal text -/

inductive TextError
  | notANumber
  | malformed
deriving DecidableEq

def exponent? (text : List Char) : Option Int :=
  (Text.signedDigits? text).map fun (negative, digits) =>
    if negative then -(Text.decimal digits : Int) else Text.decimal digits

/-- A decimal without sign: digits with at most one point among them, then an exponent. -/
def unsigned? (negative : Bool) (text : List Char) : Option Extended :=
  let whole := text.takeWhile Char.isDigit
  let afterWhole := text.dropWhile Char.isDigit
  let fraction :=
    match afterWhole with
    | '.' :: rest => rest.takeWhile Char.isDigit
    | _ => []
  let afterFraction :=
    match afterWhole with
    | '.' :: rest => rest.dropWhile Char.isDigit
    | rest => rest
  if whole.isEmpty && fraction.isEmpty then none
  else
    let power? :=
      match afterFraction with
      | [] => some 0
      | 'e' :: rest => exponent? rest
      | 'E' :: rest => exponent? rest
      | _ => none
    power?.map fun power =>
      ofRounded negative
        (Binary64.ofDecimal? negative (Text.decimal (whole ++ fraction)) (power - fraction.length))

def ofUnsignedText (negative : Bool) (text : List Char) : Except TextError Extended :=
  let word := String.ofList (text.map Char.toLower)
  if word = "inf" || word = "infinity" then .ok (.infinite negative)
  else if word = "nan" then .error .notANumber
  else
    match unsigned? negative text with
    | none => .error .malformed
    | some value => .ok value

def ofText (text : String) : Except TextError Extended :=
  match text.toList with
  | '-' :: rest => ofUnsignedText true rest
  | '+' :: rest => ofUnsignedText false rest
  | rest => ofUnsignedText false rest

end Extended

end LayeredQuery.Number
