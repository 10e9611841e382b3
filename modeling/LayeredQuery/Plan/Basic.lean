import LayeredQuery.Request.Filter
import LayeredQuery.Request.Sorting

/-!
# Plans

A plan is a query: a source followed by operators, applied one after another. Operators hold
lambdas, whose bodies are expressions over range variables, and an expression can hold a query over
a relationship of the current element. The three types are defined together.
-/

set_option autoImplicit false

namespace LayeredQuery

mutual

inductive Expr
  | parameter (name : String)
  | member (target : Expr) (field : String)
  /-- The operand viewed as an element type, or null when it is of another type. -/
  | cast (operand : Expr) (element : String)
  | typeIs (operand : Expr) (element : String)
  | constant (value : Literal)
  | compare (left : Expr) (relation : Relation) (right : Expr)
  | and (terms : List Expr)
  | or (terms : List Expr)
  | not (operand : Expr)
  | matchText (operand : Expr) (kind : TextMatch) (value : String)
  | inSet (operand : Expr) (values : List Literal)
  | any (source : Expr)
  | anyWhere (source : Expr) (predicate : Lambda)
  | count (source : Expr)
  | conditional (test ifTrue ifFalse : Expr)
  /-- An object with a value under each name. -/
  | record (element : String) (bindings : List (String × Expr))
  /-- The rows of a nested query. -/
  | rows (query : Query)

structure Lambda where
  parameter : String
  element : String
  body : Expr

inductive Query
  /-- All resources of a type. -/
  | source (type element : String)
  /-- The elements of a relationship. -/
  | navigation (source : Expr) (element : String)
  /-- The relationships on a path come along with each row. -/
  | withPath (input : Query) (path : String)
  | filter (input : Query) (predicate : Lambda)
  /-- An order, which breaks the ties of the order before it when `thenBy` is set. -/
  | orderBy (input : Query) (key : Lambda) (direction : Direction) (thenBy : Bool)
  | skip (input : Query) (count : Nat)
  | take (input : Query) (count : Nat)
  | select (input : Query) (selector : Lambda)

end

namespace Expr

def null : Expr := .constant .null

end Expr

namespace Query

def root : Query → Query
  | .source type element => .source type element
  | .navigation items element => .navigation items element
  | .withPath input _ => root input
  | .filter input _ => root input
  | .orderBy input _ _ _ => root input
  | .skip input _ => root input
  | .take input _ => root input
  | .select input _ => root input

def paths : Query → List String
  | .source _ _ => []
  | .navigation _ _ => []
  | .withPath input path => paths input ++ [path]
  | .filter input _ => paths input
  | .orderBy input _ _ _ => paths input
  | .skip input _ => paths input
  | .take input _ => paths input
  | .select input _ => paths input

end Query

/-! ## Equality -/

mutual

def Expr.beq : Expr → Expr → Bool
  | .parameter x, .parameter y => x == y
  | .member x f, .member y g => x.beq y && f == g
  | .cast x e, .cast y f => x.beq y && e == f
  | .typeIs x e, .typeIs y f => x.beq y && e == f
  | .constant x, .constant y => x.beq y
  | .compare x r x', .compare y s y' => x.beq y && r == s && x'.beq y'
  | .and xs, .and ys => Expr.beqAll xs ys
  | .or xs, .or ys => Expr.beqAll xs ys
  | .not x, .not y => x.beq y
  | .matchText x k v, .matchText y l w => x.beq y && k == l && v == w
  | .inSet x vs, .inSet y ws => x.beq y && Literal.beqAll vs ws
  | .any x, .any y => x.beq y
  | .anyWhere x p, .anyWhere y q => x.beq y && p.beq q
  | .count x, .count y => x.beq y
  | .conditional x x' x'', .conditional y y' y'' => x.beq y && x'.beq y' && x''.beq y''
  | .record e xs, .record f ys => e == f && Expr.beqBindings xs ys
  | .rows x, .rows y => x.beq y
  | _, _ => false
termination_by structural x => x

def Expr.beqAll : List Expr → List Expr → Bool
  | [], [] => true
  | x :: xs, y :: ys => x.beq y && Expr.beqAll xs ys
  | _, _ => false
termination_by structural x => x

def Expr.beqBindings : List (String × Expr) → List (String × Expr) → Bool
  | [], [] => true
  | (name, x) :: xs, (other, y) :: ys => name == other && x.beq y && Expr.beqBindings xs ys
  | _, _ => false
termination_by structural x => x

def Lambda.beq : Lambda → Lambda → Bool
  | ⟨parameter, element, body⟩, other =>
    parameter == other.parameter && element == other.element && body.beq other.body
termination_by structural x => x

def Query.beq : Query → Query → Bool
  | .source t e, .source u f => t == u && e == f
  | .navigation x e, .navigation y f => x.beq y && e == f
  | .withPath x p, .withPath y q => x.beq y && p == q
  | .filter x p, .filter y q => x.beq y && p.beq q
  | .orderBy x k d t, .orderBy y l e u => x.beq y && k.beq l && d == e && t == u
  | .skip x n, .skip y m => x.beq y && n == m
  | .take x n, .take y m => x.beq y && n == m
  | .select x s, .select y t => x.beq y && s.beq t
  | _, _ => false
termination_by structural x => x

end

end LayeredQuery
