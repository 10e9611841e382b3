import Mathlib.Logic.Relation
import LayeredQuery.Plan.Basic
import LayeredQuery.Text.Split

/-!
# Points of plans

The points of a plan are the expressions and the queries in it, each with what surrounds it: the
lambdas it lies inside of, and the queries over a relationship that it is a part of. How long a run
of member accesses can be, and how many names a path that comes along can have, is said point by
point, and shown of a point from what it is and from the points directly inside of it.
-/

set_option autoImplicit false

namespace LayeredQuery

/-- How many lambdas and how many queries over a relationship something lies in. -/
structure Surroundings where
  lambdas : Nat
  queries : Nat
deriving DecidableEq

namespace Surroundings

def outermost : Surroundings := ⟨0, 0⟩

def inLambda (around : Surroundings) : Surroundings :=
  ⟨around.lambdas + 1, around.queries⟩

def inQuery (around : Surroundings) : Surroundings :=
  ⟨around.lambdas, around.queries + 1⟩

structure AtMost (around : Surroundings) (lambdas queries : Nat) : Prop where
  lambdas : around.lambdas ≤ lambdas
  queries : around.queries ≤ queries

namespace AtMost

variable {around : Surroundings} {lambdas queries lambdas' queries' : Nat}

theorem mono (few : around.AtMost lambdas queries) (more : lambdas ≤ lambdas')
    (more' : queries ≤ queries') : around.AtMost lambdas' queries' :=
  ⟨Nat.le_trans few.lambdas more, Nat.le_trans few.queries more'⟩

theorem inLambda (few : around.AtMost lambdas queries) :
    around.inLambda.AtMost (lambdas + 1) queries :=
  ⟨Nat.succ_le_succ few.lambdas, few.queries⟩

theorem inQuery (few : around.AtMost lambdas queries) :
    around.inQuery.AtMost lambdas (queries + 1) :=
  ⟨few.lambdas, Nat.succ_le_succ few.queries⟩

end AtMost

end Surroundings

/-- The member accesses that an expression ends with, one on top of the other, casts aside. -/
def Expr.run : Expr → Nat
  | .member target _ => target.run + 1
  | .cast operand _ => operand.run
  | _ => 0

def pathLength (path : String) : Nat :=
  (Text.pieces '.' path.toList).length

inductive Point
  | expr (around : Surroundings) (expression : Expr)
  | query (around : Surroundings) (query : Query)

namespace Point

def around : Point → Surroundings
  | .expr around _ => around
  | .query around _ => around

def run : Point → Nat
  | .expr _ expression => expression.run
  | .query _ _ => 0

def segments : Point → Nat
  | .query _ (.withPath _ path) => pathLength path
  | _ => 0

def ofLambda (around : Surroundings) (lambda : Lambda) : Point :=
  .expr around.inLambda lambda.body

def inside : Point → List Point
  | .expr _ (.parameter _) => []
  | .expr around (.member target _) => [.expr around target]
  | .expr around (.cast operand _) => [.expr around operand]
  | .expr around (.typeIs operand _) => [.expr around operand]
  | .expr _ (.constant _) => []
  | .expr around (.compare left _ right) => [.expr around left, .expr around right]
  | .expr around (.and terms) => terms.map (.expr around)
  | .expr around (.or terms) => terms.map (.expr around)
  | .expr around (.not operand) => [.expr around operand]
  | .expr around (.matchText operand _ _) => [.expr around operand]
  | .expr around (.inSet operand _) => [.expr around operand]
  | .expr around (.any source) => [.expr around source]
  | .expr around (.anyWhere source predicate) =>
    [.expr around source, ofLambda around predicate]
  | .expr around (.count source) => [.expr around source]
  | .expr around (.conditional test ifTrue ifFalse) =>
    [.expr around test, .expr around ifTrue, .expr around ifFalse]
  | .expr around (.record _ bindings) => bindings.map fun binding => .expr around binding.2
  | .expr around (.rows nested) => [.query around.inQuery nested]
  | .query _ (.source _ _) => []
  | .query around (.navigation source _) => [.expr around source]
  | .query around (.withPath input _) => [.query around input]
  | .query around (.filter input predicate) => [.query around input, ofLambda around predicate]
  | .query around (.orderBy input key _ _) => [.query around input, ofLambda around key]
  | .query around (.skip input _) => [.query around input]
  | .query around (.take input _) => [.query around input]
  | .query around (.select input selector) => [.query around input, ofLambda around selector]

end Point

/-- A point of a plan, however deep it lies in it. -/
def Query.HasPoint (plan : Query) (point : Point) : Prop :=
  Relation.ReflTransGen (fun outer inner => inner ∈ outer.inside) (.query .outermost plan) point

/-! ## Bounds on all points -/

namespace Point

/-- What a limit allows at a point. -/
structure Fits (limit : Nat) (point : Point) : Prop where
  lambdas : point.around.lambdas ≤ limit + 1
  path : point.around.queries + point.segments ≤ limit
  run : point.run ≤ limit + 1

/-- What a limit allows at a point and at all points inside of it. -/
def Within (limit : Nat) (point : Point) : Prop :=
  ∀ inner, Relation.ReflTransGen (fun outer inner => inner ∈ outer.inside) point inner →
    inner.Fits limit

variable {limit : Nat} {around : Surroundings}

theorem within_of_inside {point : Point} (fits : point.Fits limit)
    (inside : ∀ inner ∈ point.inside, inner.Within limit) : point.Within limit := by
  intro inner reached
  rcases reached.cases_head with rfl | ⟨next, isInside, reached⟩
  · exact fits
  · exact inside next isInside inner reached

theorem operator_within {expression : Expr} (few : around.AtMost (limit + 1) limit)
    (ends : expression.run = 0)
    (inside : ∀ inner ∈ (Point.expr around expression).inside, inner.Within limit) :
    (Point.expr around expression).Within limit := by
  refine within_of_inside ⟨few.lambdas, few.queries, ?_⟩ inside
  exact Nat.le_trans (Nat.le_of_eq ends) (Nat.zero_le _)

theorem query_within {query : Query} (few : around.AtMost (limit + 1) limit)
    (noPath : (Point.query around query).segments = 0)
    (inside : ∀ inner ∈ (Point.query around query).inside, inner.Within limit) :
    (Point.query around query).Within limit := by
  refine within_of_inside ⟨few.lambdas, ?_, Nat.zero_le _⟩ inside
  rw [noPath]
  exact few.queries

theorem withPath_within {query : Query} {path : String} (few : around.AtMost (limit + 1) limit)
    (short : around.queries + pathLength path ≤ limit)
    (within : (Point.query around query).Within limit) :
    (Point.query around (.withPath query path)).Within limit :=
  within_of_inside ⟨few.lambdas, short, Nat.zero_le _⟩ (List.forall_mem_singleton.mpr within)

end Point

/-! ## Accessors -/

/-- A range variable under casts and at most so many member accesses. -/
inductive Expr.Reaches : Nat → Expr → Prop
  | parameter (length : Nat) (name : String) : Reaches length (.parameter name)
  | member {length : Nat} {target : Expr} (field : String) :
    Reaches length target → Reaches (length + 1) (.member target field)
  | cast {length : Nat} {operand : Expr} (element : String) :
    Reaches length operand → Reaches length (.cast operand element)

namespace Expr.Reaches

variable {length more : Nat} {expression : Expr}

theorem mono (reaches : expression.Reaches length) (longer : length ≤ more) :
    expression.Reaches more := by
  induction reaches generalizing more with
  | parameter _ name => exact .parameter more name
  | member field _ ih =>
    obtain ⟨rest, rfl⟩ := Nat.exists_eq_add_of_lt longer
    exact .member field (ih (by omega))
  | cast element _ ih => exact .cast element (ih longer)

theorem run_le (reaches : expression.Reaches length) : expression.run ≤ length := by
  induction reaches with
  | parameter => exact Nat.zero_le _
  | member _ _ ih => exact Nat.succ_le_succ ih
  | cast _ _ ih => exact ih

theorem within {limit : Nat} {around : Surroundings} (reaches : expression.Reaches length)
    (short : length ≤ limit + 1) (few : around.AtMost (limit + 1) limit) :
    (Point.expr around expression).Within limit := by
  have fits : (Point.expr around expression).Fits limit :=
    ⟨few.lambdas, few.queries, Nat.le_trans reaches.run_le short⟩
  induction reaches with
  | parameter => exact Point.within_of_inside fits fun inner member => by cases member
  | member field reaches ih =>
    refine Point.within_of_inside fits (List.forall_mem_singleton.mpr ?_)
    have shorter := Nat.le_of_succ_le short
    exact ih shorter ⟨few.lambdas, few.queries, Nat.le_trans reaches.run_le shorter⟩
  | cast element reaches ih =>
    refine Point.within_of_inside fits (List.forall_mem_singleton.mpr ?_)
    exact ih short ⟨few.lambdas, few.queries, Nat.le_trans reaches.run_le short⟩

end Expr.Reaches

end LayeredQuery
