import LayeredQuery.Json.Basic
import LayeredQuery.Number.Layout
import LayeredQuery.Schema.ValueType
import LayeredQuery.Text.Quoted
import LayeredQuery.Time.Instant
import LayeredQuery.Uuid

/-!
# Literals

A literal is a constant of a request: null, or a value of one of the value types. Literals have
one order across all types, by type first and then by value; equal literals are those the order
does not tell apart, which matters for the two zeros among the floats. A set of literals is a list
that increases in this order.
-/

set_option autoImplicit false

namespace LayeredQuery
open LayeredQuery.Number LayeredQuery.Time

inductive Literal
  | null
  | bool (value : Bool)
  | int (value : Int64)
  | float (value : Extended)
  | string (value : String)
  | dateTime (value : Instant)
  | uuid (value : Uuid)
deriving DecidableEq

namespace Literal

def type? : Literal → Option ValueType
  | .null => none
  | .bool _ => some .bool
  | .int _ => some .int
  | .float _ => some .float
  | .string _ => some .string
  | .dateTime _ => some .dateTime
  | .uuid _ => some .uuid

def isNull : Literal → Bool
  | .null => true
  | _ => false

/-! ## Order -/

def rank : Literal → Nat
  | .null => 0
  | .bool _ => 1
  | .int _ => 2
  | .float _ => 3
  | .string _ => 4
  | .dateTime _ => 5
  | .uuid _ => 6

def order : Literal → Literal → Ordering
  | .bool x, .bool y => compare x.toNat y.toNat
  | .int x, .int y => compare x.toInt y.toInt
  | .float x, .float y => x.order y
  | .string x, .string y => compare x y
  | .dateTime x, .dateTime y => x.order y
  | .uuid x, .uuid y => x.order y
  | x, y => compare x.rank y.rank

def beq (x y : Literal) : Bool :=
  x.order y == .eq

def beqAll : List Literal → List Literal → Bool
  | [], [] => true
  | x :: xs, y :: ys => x.beq y && beqAll xs ys
  | _, _ => false

/-- Adds a literal to a set; an equal one that is already there gives way to it. -/
def insert (x : Literal) : List Literal → List Literal
  | [] => [x]
  | y :: rest =>
    match x.order y with
    | .lt => x :: y :: rest
    | .eq => x :: rest
    | .gt => y :: insert x rest

def setOfList (literals : List Literal) : List Literal :=
  literals.foldl (fun set x => insert x set) []

/-! ## Forms -/

def numberOfInt (value : Int64) : Json.Numeric :=
  .int value.toInt (by have := value.le_toInt; have := value.toInt_lt; omega)

/-- The document that stands for a literal. Infinite floats have no number and become null. -/
def toJson : Literal → Json
  | .null => .null
  | .bool value => .bool value
  | .int value => .number (numberOfInt value)
  | .float (.finite value) => .number (.float value)
  | .float (.infinite _) => .null
  | .string value => .string value
  | .dateTime value => .string value.text
  | .uuid value => .string value.text

def text : Literal → String
  | .null => "null"
  | .bool true => "true"
  | .bool false => "false"
  | .int value => toString value.toInt
  | .float value => plainLayout.writeExtended value
  | .string value => Text.quoted value
  | .dateTime value => "DateTime(" ++ value.text ++ ")"
  | .uuid value => "Uuid(" ++ value.text ++ ")"

def inspect : Literal → String
  | .null => "Null"
  | .bool value => "Bool(" ++ text (.bool value) ++ ")"
  | .int value => "Int(" ++ text (.int value) ++ ")"
  | .float value => "Float(" ++ text (.float value) ++ ")"
  | .string value => "String(" ++ text (.string value) ++ ")"
  | .dateTime value => text (.dateTime value)
  | .uuid value => text (.uuid value)

def typeName (x : Literal) : String :=
  match x.type? with
  | none => "null"
  | some type => type.name

end Literal

end LayeredQuery
