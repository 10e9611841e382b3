import LayeredQuery.Plan.Basic

/-!
# Scopes of plans

A plan is well scoped when every variable in it is the parameter of a lambda around it, and no
lambda takes the name of one around it. The binders of a plan are the names its lambdas bind, a list
for each lambda; only the keys of one chain of orders, which are compared as one sort, share a list.
-/

set_option autoImplicit false

namespace LayeredQuery

/-! ## Scoping -/

mutual

/-- Whether an expression is well scoped where the names of a scope are bound. -/
@[simp]
def Expr.wellScoped (scope : List String) : Expr → Bool
  | .parameter name => scope.contains name
  | .member target _ => target.wellScoped scope
  | .cast operand _ => operand.wellScoped scope
  | .typeIs operand _ => operand.wellScoped scope
  | .constant _ => true
  | .compare left _ right => left.wellScoped scope && right.wellScoped scope
  | .and terms => Expr.allWellScoped scope terms
  | .or terms => Expr.allWellScoped scope terms
  | .not operand => operand.wellScoped scope
  | .matchText operand _ _ => operand.wellScoped scope
  | .inSet operand _ => operand.wellScoped scope
  | .any source => source.wellScoped scope
  | .anyWhere source predicate => source.wellScoped scope && predicate.wellScoped scope
  | .count source => source.wellScoped scope
  | .conditional test ifTrue ifFalse =>
    test.wellScoped scope && ifTrue.wellScoped scope && ifFalse.wellScoped scope
  | .record _ bindings => Expr.bindingsWellScoped scope bindings
  | .rows query => query.wellScoped scope

@[simp]
def Expr.allWellScoped (scope : List String) : List Expr → Bool
  | [] => true
  | term :: rest => term.wellScoped scope && Expr.allWellScoped scope rest

@[simp]
def Expr.bindingsWellScoped (scope : List String) : List (String × Expr) → Bool
  | [] => true
  | (_, value) :: rest => value.wellScoped scope && Expr.bindingsWellScoped scope rest

@[simp]
def Lambda.wellScoped (scope : List String) : Lambda → Bool
  | ⟨parameter, _, body⟩ => !scope.contains parameter && body.wellScoped (parameter :: scope)

@[simp]
def Query.wellScoped (scope : List String) : Query → Bool
  | .source _ _ => true
  | .navigation items _ => items.wellScoped scope
  | .withPath input _ => input.wellScoped scope
  | .filter input predicate => input.wellScoped scope && predicate.wellScoped scope
  | .orderBy input key _ _ => input.wellScoped scope && key.wellScoped scope
  | .skip input _ => input.wellScoped scope
  | .take input _ => input.wellScoped scope
  | .select input selector => input.wellScoped scope && selector.wellScoped scope

end

/-! ## Binders -/

/-- The binder of a chain of orders with the given keys, which has none without keys. -/
@[simp]
def chainBinder : List String → List (List String)
  | [] => []
  | key :: others => [key :: others]

mutual

@[simp]
def Expr.binders : Expr → List (List String)
  | .parameter _ => []
  | .member target _ => target.binders
  | .cast operand _ => operand.binders
  | .typeIs operand _ => operand.binders
  | .constant _ => []
  | .compare left _ right => left.binders ++ right.binders
  | .and terms => Expr.allBinders terms
  | .or terms => Expr.allBinders terms
  | .not operand => operand.binders
  | .matchText operand _ _ => operand.binders
  | .inSet operand _ => operand.binders
  | .any source => source.binders
  | .anyWhere source predicate => source.binders ++ [predicate.parameter] :: predicate.inner
  | .count source => source.binders
  | .conditional test ifTrue ifFalse => test.binders ++ ifTrue.binders ++ ifFalse.binders
  | .record _ bindings => Expr.bindingsBinders bindings
  | .rows query => query.bindersWith []

@[simp]
def Expr.allBinders : List Expr → List (List String)
  | [] => []
  | term :: rest => term.binders ++ Expr.allBinders rest

@[simp]
def Expr.bindingsBinders : List (String × Expr) → List (List String)
  | [] => []
  | (_, value) :: rest => value.binders ++ Expr.bindingsBinders rest

@[simp]
def Lambda.inner : Lambda → List (List String)
  | ⟨_, _, body⟩ => body.binders

/-- The binders of a query under the keys of the orders that break its ties. -/
@[simp]
def Query.bindersWith : Query → List String → List (List String)
  | .source _ _, keys => chainBinder keys
  | .navigation items _, keys => items.binders ++ chainBinder keys
  | .withPath input _, keys => input.bindersWith [] ++ chainBinder keys
  | .filter input predicate, keys =>
    input.bindersWith [] ++ [predicate.parameter] :: predicate.inner ++ chainBinder keys
  | .orderBy input key _ thenBy, keys =>
    (if thenBy then input.bindersWith (key.parameter :: keys)
      else input.bindersWith [] ++ chainBinder (key.parameter :: keys)) ++ key.inner
  | .skip input _, keys => input.bindersWith [] ++ chainBinder keys
  | .take input _, keys => input.bindersWith [] ++ chainBinder keys
  | .select input selector, keys =>
    input.bindersWith [] ++ [selector.parameter] :: selector.inner ++ chainBinder keys

end

def Query.binders (query : Query) : List (List String) :=
  query.bindersWith []

end LayeredQuery
