import LayeredQuery.Plan.Basic

/-!
# Text of plans

A plan reads as a chain of method calls over its source, with lambdas written `name => body`.
-/

set_option autoImplicit false

namespace LayeredQuery

def Direction.method : Direction → Bool → String
  | .ascending, false => "OrderBy"
  | .descending, false => "OrderByDescending"
  | .ascending, true => "ThenBy"
  | .descending, true => "ThenByDescending"

def callText (receiver method argument : String) : String :=
  receiver ++ "." ++ method ++ "(" ++ argument ++ ")"

mutual

def Expr.text : Expr → String
  | .parameter name => name
  | .member target field => target.text ++ "." ++ field
  | .cast operand element => "(" ++ operand.text ++ " as " ++ element ++ ")"
  | .typeIs operand element => "(" ++ operand.text ++ " is " ++ element ++ ")"
  | .constant value => value.text
  | .compare left relation right =>
    "(" ++ left.text ++ " " ++ relation.symbol ++ " " ++ right.text ++ ")"
  | .and terms => "(" ++ Text.joined " && " (Expr.texts terms) ++ ")"
  | .or terms => "(" ++ Text.joined " || " (Expr.texts terms) ++ ")"
  | .not operand => "!" ++ operand.text
  | .matchText operand kind value => callText operand.text kind.method (Text.quoted value)
  | .inSet operand values =>
    "(" ++ operand.text ++ " in [" ++ Text.joined ", " (values.map Literal.text) ++ "])"
  | .any source => callText source.text "Any" ""
  | .anyWhere source predicate => callText source.text "Any" predicate.text
  | .count source => callText source.text "Count" ""
  | .conditional test ifTrue ifFalse =>
    "(" ++ test.text ++ " ? " ++ ifTrue.text ++ " : " ++ ifFalse.text ++ ")"
  | .record element bindings =>
    "new " ++ element ++ " \x7b " ++ Text.joined ", " (Expr.bindingTexts bindings) ++ " \x7d"
  | .rows query => callText query.text "ToList" ""

def Expr.texts : List Expr → List String
  | [] => []
  | term :: rest => term.text :: Expr.texts rest

def Expr.bindingTexts : List (String × Expr) → List String
  | [] => []
  | (name, value) :: rest => (name ++ " = " ++ value.text) :: Expr.bindingTexts rest

def Lambda.text : Lambda → String
  | ⟨parameter, _, body⟩ => parameter ++ " => " ++ body.text

def Query.text : Query → String
  | .source _ element => "Source<" ++ element ++ ">"
  | .navigation items _ => items.text
  | .withPath input path => callText input.text "Include" (Text.quoted path)
  | .filter input predicate => callText input.text "Where" predicate.text
  | .orderBy input key direction thenBy => callText input.text (direction.method thenBy) key.text
  | .skip input count => callText input.text "Skip" (toString count)
  | .take input count => callText input.text "Take" (toString count)
  | .select input selector => callText input.text "Select" selector.text

end

end LayeredQuery
