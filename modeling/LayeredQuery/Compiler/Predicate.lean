import LayeredQuery.Compiler.Resolution
import LayeredQuery.Request.Filter

/-!
# Compiling filters

A filter becomes a predicate over the current element. The chains in it are walked name by name: a
relationship to one resource is a member access, and a relationship to many that is not at the end
lifts the rest of the chain into a test that holds when it holds for any of the resources. What the
end of a chain has to be depends on the filter, and is checked by a `Leaf`.
-/

set_option autoImplicit false

namespace LayeredQuery

/-- What becomes of the end of a chain: its value, its field and its path. -/
abbrev Leaf : Type := Expr → ResolvedField → String → Compile Expr

namespace Compiler

/-! ## Chains -/

/-- Follows the names left of a chain, of which `taken` are behind. -/
def walkFrom (compiler : Compiler) (chain : Chain) (leaf : Leaf) :
    List String → Nat → Expr → ResourceType → Compile Expr
  | [], _, _, _ => .fail (.invalid "" .emptyChain)
  | [last], taken, current, owner => do
    let path := chain.textOfFirst (taken + 1)
    let resolved ← compiler.resolve owner last path
    leaf (resolved.access current) resolved path
  | name :: next :: rest, taken, current, owner => do
    let path := chain.textOfFirst (taken + 1)
    let resolved ← compiler.resolve owner name path
    let value := resolved.access current
    match resolved.kind with
    | .toOne _ => do
      let target ← .ofExcept (compiler.targetOf resolved path)
      compiler.deeper path
        (walkFrom compiler chain leaf (next :: rest) (taken + 1) value target)
    | .toMany _ => do
      let target ← .ofExcept (compiler.targetOf resolved path)
      compiler.deeper path
        (.withVariable target.element fun v => do
          let inner ←
            walkFrom compiler chain leaf (next :: rest) (taken + 1) v.accessor target
          .done (.anyWhere value (v.lambda inner)))
    | .attribute _ _ => .fail (.typeMismatch path "relationship" resolved.describe)

def walk (compiler : Compiler) (chain : Chain) (current : Expr) (owner : ResourceType)
    (leaf : Leaf) : Compile Expr :=
  compiler.walkFrom chain leaf chain.names 0 current owner

/-! ## Type checks -/

def checkAttribute (type : ValueType) (nullable : Bool) (path : String) (relation : Relation)
    (literal : Literal) : Except CompileError Unit :=
  match literal.type? with
  | none =>
    if relation.isOrdering then
      .error (.typeMismatch path "equals or notEquals for null" relation.keyword)
    else if nullable then .ok ()
    else .error (.typeMismatch path type.name "null")
  | some found =>
    if type.accepts found then
      if relation.isOrdering && !type.isOrderable then
        .error (.typeMismatch path "orderable attribute" type.name)
      else .ok ()
    else .error (.typeMismatch path type.name found.name)

def checkConstant (resolved : ResolvedField) (path : String) (relation : Relation)
    (literal : Literal) : Except CompileError Unit :=
  match resolved.kind with
  | .attribute type nullable => checkAttribute type nullable path relation literal
  | .toOne _ =>
    if literal.isNull && !relation.isOrdering then .ok ()
    else
      .error (.typeMismatch path "null with equals or notEquals"
        (relation.keyword ++ "(" ++ literal.text ++ ")"))
  | .toMany _ => .error (.typeMismatch path "attribute or to-one relationship" resolved.describe)

def checkAllConstants (resolved : ResolvedField) (path : String) :
    List Literal → Except CompileError Unit
  | [] => .ok ()
  | literal :: rest =>
    match checkConstant resolved path .equal literal with
    | .error error => .error error
    | .ok () => checkAllConstants resolved path rest

def checkConstants (relation : Relation) (left right : Literal) : Except CompileError Unit :=
  match left.type?, right.type? with
  | some type, some other =>
    if type.accepts other || other.accepts type then
      if relation.isOrdering && !type.isOrderable then
        .error (.typeMismatch left.text "orderable value" type.name)
      else .ok ()
    else .error (.typeMismatch left.text type.name other.name)
  | _, _ =>
    if relation.isOrdering then
      .error (.typeMismatch left.text "equals or notEquals for null" relation.keyword)
    else .ok ()

def checkToMany (resolved : ResolvedField) (path : String) : Except CompileError Unit :=
  if resolved.kind.isToMany then .ok ()
  else .error (.typeMismatch path "to-many relationship" resolved.describe)

/-- The derived type that a type test asks for, which has to be known and derive from the type of
what is tested. -/
def derivedType (compiler : Compiler) (name : String) (static : ResourceType) (path : String) :
    Except CompileError ResourceType :=
  match compiler.type name with
  | .error error => .error error
  | .ok derived =>
    if compiler.schema.isSameOrDerived derived.name static.name then .ok derived
    else
      .error (.typeMismatch path ("type derived from '" ++ static.name ++ "'") derived.name)

/-! ## Leaves -/

def fieldLeaf (relation : Relation) (literal : Literal) : Leaf :=
  fun value resolved path => do
    .ofExcept (checkConstant resolved path relation literal)
    .done (.compare value relation (.constant literal))

def countLeaf (relation : Relation) (literal : Literal) : Leaf :=
  fun value resolved path => do
    .ofExcept (checkToMany resolved path)
    match literal.type? with
    | some .int => .done (.compare (.count value) relation (.constant literal))
    | _ => .fail (.typeMismatch path ValueType.int.name literal.typeName)

def textLeaf (kind : TextMatch) (needle : String) : Leaf :=
  fun value resolved path =>
    match resolved.kind with
    | .attribute .string _ => .done (.matchText value kind needle)
    | _ => .fail (.typeMismatch path "string attribute" resolved.describe)

def setLeaf (literals : List Literal) : Leaf :=
  fun value resolved path =>
    if literals.isEmpty then .fail (.invalid path .emptySet)
    else do
      .ofExcept (checkAllConstants resolved path literals)
      match resolved.kind with
      | .attribute _ _ => .done (.inSet value literals)
      | _ => .fail (.typeMismatch path "attribute" resolved.describe)

def hasLeaf : Leaf :=
  fun value resolved path => do
    .ofExcept (checkToMany resolved path)
    .done (.any value)

def hasWhereLeaf (compiler : Compiler) (inner : Expr → ResourceType → Compile Expr) : Leaf :=
  fun value resolved path => do
    .ofExcept (checkToMany resolved path)
    let target ← .ofExcept (compiler.targetOf resolved path)
    .withVariable target.element fun v => do
      let body ← .mapError (.within path) (inner v.accessor target)
      .done (.anyWhere value (v.lambda body))

def narrowed (compiler : Compiler) (resolved : ResolvedField) (path type : String) :
    Compile ResourceType :=
  match resolved.kind with
  | .toOne _ => do
    let target ← .ofExcept (compiler.targetOf resolved path)
    .ofExcept (compiler.derivedType type target path)
  | _ => .fail (.typeMismatch path "to-one relationship" resolved.describe)

def isTypeLeaf (compiler : Compiler) (type : String) : Leaf :=
  fun value resolved path => do
    let derived ← compiler.narrowed resolved path type
    .done (.typeIs value derived.element)

def typeTest (operand : Expr) (derived : ResourceType)
    (inner : Expr → ResourceType → Compile Expr) : Compile Expr := do
  let body ← inner (.cast operand derived.element) derived
  .done (.and [.typeIs operand derived.element, body])

def isTypeWhereLeaf (compiler : Compiler) (type : String)
    (inner : Expr → ResourceType → Compile Expr) : Leaf :=
  fun value resolved path => do
    let derived ← compiler.narrowed resolved path type
    typeTest value derived fun cast target => .mapError (.within path) (inner cast target)

/-! ## Comparisons -/

def scalar (compiler : Compiler) (target : Target) (current : Expr) (owner : ResourceType) :
    Compile (Expr × ValueType) :=
  match target with
  | .field chain => do
    let (value, resolved) ←
      .mapError (.withReason .compareAcrossToMany) (compiler.singleValue chain current owner)
    match resolved.kind with
    | .attribute type _ => .done (value, type)
    | _ => .fail (.typeMismatch chain.text "attribute" resolved.describe)
  | .count chain => do
    let (value, resolved) ←
      .mapError (.withReason .compareAcrossToMany) (compiler.singleValue chain current owner)
    .ofExcept (checkToMany resolved chain.text)
    .done (.count value, .int)

def compareTargets (compiler : Compiler) (left : Target) (relation : Relation) (right : Target)
    (current : Expr) (owner : ResourceType) : Compile Expr := do
  let (leftValue, leftType) ← compiler.scalar left current owner
  let (rightValue, rightType) ← compiler.scalar right current owner
  if leftType.accepts rightType || rightType.accepts leftType then
    if relation.isOrdering && !leftType.isOrderable then
      .fail (.typeMismatch left.text "orderable attribute" leftType.name)
    else .done (.compare leftValue relation rightValue)
  else .fail (.typeMismatch right.text leftType.name rightType.name)

def compareWithConstant (compiler : Compiler) (target : Target) (relation : Relation)
    (literal : Literal) (current : Expr) (owner : ResourceType) : Compile Expr :=
  match target with
  | .field chain => compiler.walk chain current owner (fieldLeaf relation literal)
  | .count chain => compiler.walk chain current owner (countLeaf relation literal)

/-- A comparison; a constant on the left side changes places with a target on the right. -/
def comparison (compiler : Compiler) (left : Operand) (relation : Relation) (right : Operand)
    (current : Expr) (owner : ResourceType) : Compile Expr :=
  match left, right with
  | .constant a, .constant b => do
    .ofExcept (checkConstants relation a b)
    .done (.compare (.constant a) relation (.constant b))
  | .constant a, .target t => compiler.compareWithConstant t relation.reversed a current owner
  | .target t, .constant b => compiler.compareWithConstant t relation b current owner
  | .target t, .target u => compiler.compareTargets t relation u current owner

/-! ## Filters -/

def filterLabel : Filter → String
  | .compare (.constant _) _ right => right.text
  | .compare left _ _ => left.text
  | .logical connective _ => connective.keyword
  | .not _ => "not"
  | .matchText chain _ _ => chain.text
  | .oneOf chain _ => chain.text
  | .has chain => chain.text
  | .hasWhere chain _ => chain.text
  | .isType (some chain) _ => chain.text
  | .isType none type => type
  | .isTypeWhere (some chain) _ _ => chain.text
  | .isTypeWhere none type _ => type

def connect : Connective → List Expr → Expr
  | .and, terms => .and terms
  | .or, terms => .or terms

mutual

def predicate (compiler : Compiler) : Filter → Expr → ResourceType → Compile Expr
  | .compare left relation right, current, owner =>
    compiler.deeper (filterLabel (.compare left relation right))
      (compiler.comparison left relation right current owner)
  | .logical connective terms, current, owner =>
    compiler.deeper connective.keyword
      (if terms.length < 2 then .fail (.invalid connective.keyword (.fewTerms terms.length))
      else do
        let compiled ← predicates compiler terms current owner
        .done (connect connective compiled))
  | .not term, current, owner =>
    compiler.deeper "not" do
      let compiled ← predicate compiler term current owner
      .done (.not compiled)
  | .matchText chain kind value, current, owner =>
    compiler.deeper chain.text (compiler.walk chain current owner (textLeaf kind value))
  | .oneOf chain literals, current, owner =>
    compiler.deeper chain.text (compiler.walk chain current owner (setLeaf literals))
  | .has chain, current, owner =>
    compiler.deeper chain.text (compiler.walk chain current owner hasLeaf)
  | .hasWhere chain filter, current, owner =>
    compiler.deeper chain.text
      (compiler.walk chain current owner
        (compiler.hasWhereLeaf fun element target => predicate compiler filter element target))
  | .isType none type, current, owner =>
    compiler.deeper type do
      let derived ← .ofExcept (compiler.derivedType type owner type)
      .done (.typeIs current derived.element)
  | .isType (some chain) type, current, owner =>
    compiler.deeper chain.text (compiler.walk chain current owner (compiler.isTypeLeaf type))
  | .isTypeWhere none type filter, current, owner =>
    compiler.deeper type do
      let derived ← .ofExcept (compiler.derivedType type owner type)
      typeTest current derived fun element target => predicate compiler filter element target
  | .isTypeWhere (some chain) type filter, current, owner =>
    compiler.deeper chain.text
      (compiler.walk chain current owner
        (compiler.isTypeWhereLeaf type fun element target =>
          predicate compiler filter element target))

def predicates (compiler : Compiler) : List Filter → Expr → ResourceType → Compile (List Expr)
  | [], _, _ => .done []
  | filter :: rest, current, owner => do
    let compiled ← predicate compiler filter current owner
    let others ← predicates compiler rest current owner
    .done (compiled :: others)

end

def filterClause (compiler : Compiler) (source : Query) (filter : Filter) (v : Variable)
    (type : ResourceType) : Compile Query := do
  let body ← compiler.predicate filter v.accessor type
  .done (.filter source (v.lambda body))

end Compiler

end LayeredQuery
