import LayeredQuery.Compiler.Inclusion
import LayeredQuery.Compiler.Predicate
import LayeredQuery.Compiler.SortOrder
import LayeredQuery.Request.Layer

/-!
# Compiling layers

The clauses of a layer are applied in the order include, filter, sort, page, projection, each to
what the clauses before it made of the source.

A projection builds one object per element. Its names are resolved in the order they came in, and
bound with the identity first and the others by name, so that the plan does not depend on the order
of a request. A relationship to one resource can carry a projection of its own, which gives null
where there is no resource; a relationship to many can carry any layer, which becomes a nested
query.
-/

set_option autoImplicit false

namespace LayeredQuery

namespace Compiler

/-! ## Pages -/

/-- A query reduced to a page. Nothing is skipped when there is nothing to skip, but a limit is set
whenever there is one. -/
def pageClause (source : Query) (page : Page) : Query :=
  let skipped := if 0 < page.skip then .skip source page.skip else source
  match page.take with
  | none => skipped
  | some count => .take skipped count

/-! ## Projections -/

/-- A selected name, and what its field of an element becomes once it is resolved. -/
structure Binding where
  name : String
  value : Expr → ResolvedField → Compile Expr

def plainBinding (name : String) : Binding :=
  ⟨name, fun accessor resolved => .done (resolved.access accessor)⟩

def resolveBindings (compiler : Compiler) (type : ResourceType) :
    List Binding → Compile (List (Binding × ResolvedField))
  | [] => .done []
  | binding :: rest => do
    let resolved ← compiler.resolve type binding.name binding.name
    let others ← resolveBindings compiler type rest
    .done ((binding, resolved) :: others)

/-- The identity comes first and the other names follow in their order. -/
def bindsBefore (idField left right : String) : Bool :=
  if left = idField then true
  else if right = idField then false
  else left ≤ right

def withIdentity (compiler : Compiler) (type : ResourceType) (bindings : List Binding) :
    List Binding :=
  if compiler.settings.alwaysIncludeIdentity
      && !bindings.any fun binding => binding.name = type.idField then
    bindings ++ [plainBinding type.idField]
  else bindings

def record (compiler : Compiler) (bindings : List Binding) (accessor : Expr)
    (type : ResourceType) : Compile Expr := do
  let resolved ← compiler.resolveBindings type (compiler.withIdentity type bindings)
  let sorted := resolved.mergeSort fun x y => bindsBefore type.idField x.1.name y.1.name
  let values ← Compile.traverse
    (fun (binding, field) => do
      let value ← binding.value accessor field
      .done (binding.name, value))
    sorted
  .done (.record type.element values)

def nestedTarget (compiler : Compiler) (resolved : ResolvedField) (layerType path : String) :
    Except CompileError ResourceType :=
  match compiler.targetOf resolved path with
  | .error error => .error error
  | .ok target =>
    if layerType = target.name then .ok target
    else .error (.typeMismatch path target.name layerType)

def hasClauses (layer : Layer) : Bool :=
  layer.tree.isSome || layer.filter.isSome || layer.sort.isSome || layer.page.isSome

def nestedRecord (compiler : Compiler) (value : Expr) (target : ResourceType) (path : String)
    (body : Expr → ResourceType → Compile Expr) : Compile Expr :=
  compiler.deeper path do
    let built ← .mapError (.within path) (body value target)
    .done (.conditional (.compare value .equal .null) .null built)

def nestedRows (compiler : Compiler) (value : Expr) (target : ResourceType) (path : String)
    (apply : Query → ResourceType → Compile Query) : Compile Expr :=
  compiler.deeper path do
    let query ← .mapError (.within path) (apply (.navigation value target.element) target)
    .done (.rows query)

/-- What a field with a nested layer becomes, given how the layer applies to a query and what
projection, if any, it makes of a single element. -/
def nestedValue (compiler : Compiler) (layer : Layer)
    (apply : Query → ResourceType → Compile Query)
    (body? : Option (Expr → ResourceType → Compile Expr))
    (accessor : Expr) (resolved : ResolvedField) : Compile Expr :=
  let path := resolved.field.name
  let value := resolved.access accessor
  match resolved.kind with
  | .attribute _ _ => .fail (.invalid path .attributeLayer)
  | .toOne _ => do
    let target ← .ofExcept (compiler.nestedTarget resolved layer.type path)
    if hasClauses layer then .fail (.unsupported path .toOneClauses)
    else
      match body? with
      | none => .done value
      | some body => compiler.nestedRecord value target path body
  | .toMany _ => do
    let target ← .ofExcept (compiler.nestedTarget resolved layer.type path)
    compiler.nestedRows value target path apply

/-! ## Layers -/

def optionally {α : Type} (clause : α → Query → Compile Query) :
    Option α → Query → Compile Query
  | none, query => .done query
  | some value, query => clause value query

mutual

def applyLayer (compiler : Compiler) : Layer → Query → ResourceType → Compile Query
  | ⟨name, tree, filter, sort, page, projection⟩, source, type =>
    if name = type.name then do
      let included ← optionally (fun tree query => compiler.includeClause query tree type)
        tree source
      let filtered ← optionally (fun filter query =>
        .withVariable type.element fun v => compiler.filterClause query filter v type)
        filter included
      let sorted ← optionally (fun sorting query =>
        .withVariable type.element fun v => compiler.sortClause query sorting v type)
        sort filtered
      let paged ← optionally (fun page query => .done (pageClause query page)) page sorted
      match projectionBody compiler projection with
      | none => .done paged
      | some body =>
        .withVariable type.element fun v => do
          let built ← body v.accessor type
          .done (.select paged (v.lambda built))
    else .fail (.typeMismatch name type.name name)

def layerBody (compiler : Compiler) :
    Layer → Option (Expr → ResourceType → Compile Expr)
  | ⟨_, _, _, _, _, projection⟩ => projectionBody compiler projection

/-- What a projection makes of an element; one that is absent or empty makes nothing. -/
def projectionBody (compiler : Compiler) :
    Option (List Selection) → Option (Expr → ResourceType → Compile Expr)
  | none => none
  | some selections =>
    if selections.isEmpty then none
    else some fun accessor type => compiler.record (bindings compiler selections) accessor type

def bindings (compiler : Compiler) : List Selection → List Binding
  | [] => []
  | selection :: rest => binding compiler selection :: bindings compiler rest

def binding (compiler : Compiler) : Selection → Binding
  | .field name => plainBinding name
  | .nested name layer =>
    ⟨name, fun accessor resolved =>
      compiler.nestedValue layer (fun query target => applyLayer compiler layer query target)
        (layerBody compiler layer) accessor resolved⟩

end

/-- A query that makes of each element what a projection asks for, even an empty one. -/
def selectClause (compiler : Compiler) (source : Query) (selections : List Selection)
    (v : Variable) (type : ResourceType) : Compile Query := do
  let body ← compiler.record (compiler.bindings selections) v.accessor type
  .done (.select source (v.lambda body))

def compileIn (compiler : Compiler) (layer : Layer) : Compile Query := do
  let type ← .ofExcept (compiler.type layer.type)
  compiler.applyLayer layer (.source type.name type.element) type

def compile (compiler : Compiler) (layer : Layer) : Except CompileError Query :=
  (compiler.compileIn layer Context.start).1

end Compiler

end LayeredQuery
