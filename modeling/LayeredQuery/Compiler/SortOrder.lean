import LayeredQuery.Compiler.Predicate
import LayeredQuery.Request.Sorting

/-!
# Compiling sort keys

The first key gives the primary order and each further key breaks the ties left by those before it,
all over one range variable.
-/

set_option autoImplicit false

namespace LayeredQuery

namespace Compiler

def sortValue (compiler : Compiler) (target : Target) (current : Expr) (owner : ResourceType) :
    Compile Expr :=
  match target with
  | .field chain => do
    let (value, resolved) ←
      .mapError (.withReason .sortAcrossToMany) (compiler.singleValue chain current owner)
    match resolved.kind with
    | .attribute _ _ => .done value
    | .toMany _ => .fail (.unsupported chain.text .sortOnToMany)
    | .toOne _ => .fail (.typeMismatch chain.text "attribute" resolved.describe)
  | .count chain => do
    let (value, resolved) ←
      .mapError (.withReason .sortAcrossToMany) (compiler.singleValue chain current owner)
    .ofExcept (checkToMany resolved chain.text)
    .done (.count value)

def orderByKeys (compiler : Compiler) (v : Variable) (type : ResourceType) :
    List SortKey → Bool → Query → Compile Query
  | [], _, query => .done query
  | key :: rest, thenBy, query => do
    let value ← compiler.sortValue key.target v.accessor type
    orderByKeys compiler v type rest true
      (.orderBy query (v.lambda value) key.direction thenBy)

def sortClause (compiler : Compiler) (source : Query) (sorting : Sorting) (v : Variable)
    (type : ResourceType) : Compile Query :=
  if sorting.keys.isEmpty then .fail (.invalid "sort" .emptySort)
  else compiler.orderByKeys v type sorting.keys false source

end Compiler

end LayeredQuery
