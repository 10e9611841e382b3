import LayeredQuery.Keyed
import LayeredQuery.Number.Binary64

/-!
# Documents

A document is null, a truth value, a number, a string, an array or an object. A number is an
integer of 64 bits, signed or unsigned, or a float; the two kinds differ even where their values
agree. An object holds its entries with increasing keys.

Equality of documents is `Json.beq`: it is structural, except that floats are equal when their
values are, so the two zeros are.
-/

set_option autoImplicit false

namespace LayeredQuery
open LayeredQuery.Number

namespace Json

inductive Numeric
  | int (value : Int) (inRange : -0x8000000000000000 ≤ value ∧ value < 0x10000000000000000)
  | float (value : Binary64)

namespace Numeric

def beq : Numeric → Numeric → Bool
  | .int x _, .int y _ => x == y
  | .float x, .float y => x.order y == .eq
  | _, _ => false

def ofInt? (value : Int) : Option Numeric :=
  if h : -0x8000000000000000 ≤ value ∧ value < 0x10000000000000000 then some (.int value h)
  else none

/-- A size as a number; sizes beyond the unsigned range all become its end. -/
def ofSize (size : Nat) : Numeric :=
  if h : size < 0x10000000000000000 then .int size (by omega)
  else .int 0xFFFFFFFFFFFFFFFF (by omega)

end Numeric

end Json

inductive Json
  | null
  | bool (value : Bool)
  | number (value : Json.Numeric)
  | string (value : String)
  | array (items : List Json)
  | object (entries : List (String × Json))

namespace Json

mutual

def beq : Json → Json → Bool
  | .null, .null => true
  | .bool x, .bool y => x == y
  | .number x, .number y => x.beq y
  | .string x, .string y => x == y
  | .array xs, .array ys => beqItems xs ys
  | .object xs, .object ys => beqEntries xs ys
  | _, _ => false

def beqItems : List Json → List Json → Bool
  | [], [] => true
  | x :: xs, y :: ys => beq x y && beqItems xs ys
  | _, _ => false

def beqEntries : List (String × Json) → List (String × Json) → Bool
  | [], [] => true
  | (name, x) :: xs, (other, y) :: ys => name == other && beq x y && beqEntries xs ys
  | _, _ => false

end

def isNull : Json → Bool
  | .null => true
  | _ => false

def kind : Json → String
  | .null => "null"
  | .bool _ => "bool"
  | .number _ => "number"
  | .string _ => "string"
  | .array _ => "array"
  | .object _ => "object"

/-- An object from entries in any order; of entries with one key the last counts. -/
def ofEntries (entries : List (String × Json)) : Json :=
  .object (entries.foldl (fun sorted entry => Keyed.insert entry.1 entry.2 sorted) [])

end Json

end LayeredQuery
