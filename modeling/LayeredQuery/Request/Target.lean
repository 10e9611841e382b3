import LayeredQuery.Request.Chain

/-!
# Targets

A target is what filters and sort keys speak of: the value of a field, or the number of resources in
a relationship.
-/

set_option autoImplicit false

namespace LayeredQuery

inductive Target
  | field (chain : Chain)
  | count (chain : Chain)
deriving DecidableEq

namespace Target

def text : Target → String
  | .field chain => chain.text
  | .count chain => "count(" ++ chain.text ++ ")"

/-- The text between `count(` and a closing bracket at the end. -/
def counted? (text : List Char) : Option (List Char) :=
  match "count(".toList.isPrefixOf? text with
  | none => none
  | some rest => [')'].isSuffixOf? rest

def ofText (text : List Char) : Target :=
  match counted? text with
  | some inner => .count (Chain.ofText (String.ofList inner))
  | none => .field (Chain.ofText (String.ofList text))

end Target

end LayeredQuery
