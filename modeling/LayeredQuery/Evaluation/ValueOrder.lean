import LayeredQuery.Json.Printer
import LayeredQuery.Request.Filter
import LayeredQuery.Request.Sorting
import LayeredQuery.Time.Instant

/-!
# Order of values

Two values of one kind can be compared: truth values and numbers as usual, strings as instants when
both are written as such and otherwise by code points, arrays and objects by their texts. Numbers
are compared as integers when both are signed integers of 64 bits, and otherwise as floats.

Null is equal to null only and is before or after nothing. In a sort it comes last in both
directions, and values of different kinds go by kind.
-/

set_option autoImplicit false

namespace LayeredQuery

namespace Json

def signed? : Numeric → Option Int
  | .int value _ => if value < 0x8000000000000000 then some value else none
  | .float _ => none

def nearest? : Numeric → Option Number.Binary64
  | .int value _ => Number.Binary64.ofRatio? (value < 0) value.natAbs 1
  | .float value => some value

def orderNumbers? (x y : Numeric) : Option Ordering :=
  match signed? x, signed? y with
  | some x, some y => some (compare x y)
  | _, _ =>
    match nearest? x, nearest? y with
    | some x, some y => some (x.order y)
    | _, _ => none

def orderStrings (x y : String) : Ordering :=
  match Time.Instant.ofText? x, Time.Instant.ofText? y with
  | some x, some y => x.order y
  | _, _ => compare x y

def order? : Json → Json → Option Ordering
  | .bool x, .bool y => some (compare x.toNat y.toNat)
  | .number x, .number y => orderNumbers? x y
  | .string x, .string y => some (orderStrings x y)
  | .array xs, .array ys => some (compare (text (.array xs)) (text (.array ys)))
  | .object xs, .object ys => some (compare (text (.object xs)) (text (.object ys)))
  | _, _ => none

/-- Equality of values, which for arrays and objects is that of documents. -/
def same : Json → Json → Bool
  | .null, .null => true
  | .null, _ => false
  | _, .null => false
  | .array xs, .array ys => beq (.array xs) (.array ys)
  | .object xs, .object ys => beq (.object xs) (.object ys)
  | x, y => order? x y == some .eq

def kindRank : Json → Nat
  | .null => 0
  | .bool _ => 1
  | .number _ => 2
  | .string _ => 3
  | .array _ => 4
  | .object _ => 5

def sortOrder (direction : Direction) : Json → Json → Ordering
  | .null, .null => .eq
  | .null, _ => .gt
  | _, .null => .lt
  | x, y =>
    let order := (order? x y).getD (compare x.kindRank y.kindRank)
    match direction with
    | .ascending => order
    | .descending => order.swap

end Json

/-- Whether a relation holds of two values. An order never holds of null. -/
def Relation.holds (relation : Relation) (x y : Json) : Bool :=
  match relation with
  | .equal => x.same y
  | .notEqual => !x.same y
  | .less => !x.isNull && !y.isNull && Json.order? x y == some .lt
  | .lessOrEqual =>
    !x.isNull && !y.isNull && (Json.order? x y == some .lt || Json.order? x y == some .eq)
  | .greater => !x.isNull && !y.isNull && Json.order? x y == some .gt
  | .greaterOrEqual =>
    !x.isNull && !y.isNull && (Json.order? x y == some .gt || Json.order? x y == some .eq)

end LayeredQuery
