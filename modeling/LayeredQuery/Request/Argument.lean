/-!
# Invalid arguments

A part of a request can be unusable whatever the schema says: an empty chain, a logical term with
one operand, page number zero. Such a fault names the place in the request where it stands.
-/

set_option autoImplicit false

namespace LayeredQuery

inductive ArgumentFault
  | emptyChain
  | emptySort
  | emptyInclude
  | emptyIncludeChain
  | emptySet
  | fewTerms (found : Nat)
  | pageZero
  | attributeLayer
deriving DecidableEq

namespace ArgumentFault

def reason : ArgumentFault → String
  | .emptyChain => "field chains must not be empty"
  | .emptySort => "a sort expression requires at least one element"
  | .emptyInclude =>
    "an include expression requires at least one element; use IncludeExpression::EMPTY instead"
  | .emptyIncludeChain => "relationship chains in an include must not be empty"
  | .emptySet => "any() requires at least one constant"
  | .fewTerms found =>
    "a logical expression requires at least two terms, found " ++ toString found
  | .pageZero => "page numbers start at 1"
  | .attributeLayer => "an attribute cannot carry a nested query layer"

end ArgumentFault

structure InvalidArgument where
  path : String
  fault : ArgumentFault
deriving DecidableEq

namespace InvalidArgument

def message (argument : InvalidArgument) : String :=
  "invalid argument at '" ++ argument.path ++ "': " ++ argument.fault.reason

end InvalidArgument

end LayeredQuery
