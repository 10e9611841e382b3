import LayeredQuery.Json.Basic

/-!
# Value types of attributes

The type of an attribute decides which constants it can be compared with and whether its values
have an order that queries may ask for. Integers are accepted where floats are expected; every
other pair of types must agree.
-/

set_option autoImplicit false

namespace LayeredQuery

inductive ValueType
  | bool
  | int
  | float
  | string
  | dateTime
  | uuid
deriving DecidableEq

namespace ValueType

def all : List ValueType := [.bool, .int, .float, .string, .dateTime, .uuid]

def name : ValueType → String
  | .bool => "bool"
  | .int => "int"
  | .float => "float"
  | .string => "string"
  | .dateTime => "dateTime"
  | .uuid => "uuid"

def ofName? (name : String) : Option ValueType :=
  all.find? fun type => type.name == name

/-- Whether a value of type `other` can stand where this type is expected. -/
def accepts (type other : ValueType) : Bool :=
  type == other || (type == .float && other == .int)

def isOrderable : ValueType → Bool
  | .bool => false
  | .uuid => false
  | _ => true

/-- A type written as its name, or as an object that maps its name to null. -/
def ofJson? : Json → Option ValueType
  | .string name => ofName? name
  | .object [(name, .null)] => ofName? name
  | _ => none

end ValueType

end LayeredQuery
