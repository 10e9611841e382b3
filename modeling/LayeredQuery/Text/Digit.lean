/-!
# Digits

Values of decimal and hexadecimal digits, and numbers written with a fixed count of digits.
-/

set_option autoImplicit false

namespace LayeredQuery.Text

def decimalValue (c : Char) : Nat :=
  c.toNat - '0'.toNat

def decimal (digits : List Char) : Nat :=
  digits.foldl (fun value c => value * 10 + decimalValue c) 0

def hexValue? (c : Char) : Option Nat :=
  if c.isDigit then some (decimalValue c)
  else if 'a' ≤ c ∧ c ≤ 'f' then some (c.toNat - 'a'.toNat + 10)
  else if 'A' ≤ c ∧ c ≤ 'F' then some (c.toNat - 'A'.toNat + 10)
  else none

/-- A sign that may be left out, and at least one digit. The sign says whether it is a minus. -/
def signedDigits? : List Char → Option (Bool × List Char)
  | '+' :: digits => nonempty? false digits
  | '-' :: digits => nonempty? true digits
  | digits => nonempty? false digits
where
  nonempty? (negative : Bool) (digits : List Char) : Option (Bool × List Char) :=
    if digits.isEmpty || !digits.all Char.isDigit then none else some (negative, digits)

/-- The last digits of a number, as many as asked for, with zeros in front where it is short. -/
def fixedWidth (base : Nat) : Nat → Nat → List Char
  | 0, _ => []
  | width + 1, n => fixedWidth base width (n / base) ++ [Nat.digitChar (n % base)]

end LayeredQuery.Text
