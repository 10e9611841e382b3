import LayeredQuery.Number.Extended
import LayeredQuery.Number.Shortest

/-!
# Layout of decimal digits

Digits with an exponent are laid out positionally while the exponent stays inside a range, and
otherwise as one digit, a fraction and a power of ten. A `Layout` says where the range ends,
whether a whole number keeps a fraction `.0`, and how ties between digits go.
-/

set_option autoImplicit false

namespace LayeredQuery.Number

structure Layout where
  /-- The exponents of the first digit that are written without a power of ten. -/
  positional : Int → Bool
  wholeFraction : Bool
  tie : Tie

namespace Layout

def zeros (count : Nat) : List Char :=
  List.replicate count '0'

/-- Digits with the point where it belongs: after leading zeros, inside, or after trailing
zeros. -/
def writePositional (layout : Layout) (d : Digits) : List Char :=
  let fraction := if layout.wholeFraction then ['.', '0'] else []
  match d.exponent with
  | .negSucc n => ['0', '.'] ++ zeros n ++ d.digits
  | .ofNat n =>
    if d.digits.length ≤ n + 1 then d.digits ++ zeros (n + 1 - d.digits.length) ++ fraction
    else d.digits.take (n + 1) ++ ['.'] ++ d.digits.drop (n + 1)

def writeExponent : Int → List Char
  | .ofNat n => ['e', '+'] ++ Nat.toDigits 10 n
  | .negSucc n => ['e', '-'] ++ Nat.toDigits 10 (n + 1)

def writeScientific (d : Digits) : List Char :=
  match d.digits with
  | [] => []
  | [digit] => digit :: writeExponent d.exponent
  | digit :: rest => digit :: '.' :: rest ++ writeExponent d.exponent

def writeMagnitude (layout : Layout) (x : Binary64) : List Char :=
  let d := if x.isZero then ⟨['0'], 0⟩ else Digits.shortest layout.tie x
  if layout.positional d.exponent then layout.writePositional d else writeScientific d

def write (layout : Layout) (x : Binary64) : String :=
  String.ofList (if x.negative then '-' :: layout.writeMagnitude x else layout.writeMagnitude x)

def writeExtended (layout : Layout) : Extended → String
  | .finite x => layout.write x
  | .infinite false => "inf"
  | .infinite true => "-inf"

end Layout

/-- Every exponent is positional and a whole number has no fraction. -/
def plainLayout : Layout :=
  ⟨fun _ => true, false, .up⟩

/-- Between `10 ^ (-5)` and `10 ^ 16` the layout is positional with a fraction. -/
def documentLayout : Layout :=
  ⟨fun exponent => -5 ≤ exponent && exponent ≤ 15, true, .toEven⟩

end LayeredQuery.Number
