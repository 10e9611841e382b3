import LayeredQuery.Proofs.Compiler.Depth.Predicate
import LayeredQuery.Proofs.Compiler.Inclusion
import LayeredQuery.Proofs.Compiler.Layer

/-!
# Depths of compiled layers

A layer is applied to a source that lies inside of at most as many lambdas and queries as levels
were entered. Its clauses open one lambda each, none of them inside another, and a nested layer
enters a level before it opens its own. The names of an included path enter a level each, so a path
is no longer than the levels left.
-/

set_option autoImplicit false

namespace LayeredQuery

namespace Compiler

open Compile

variable {compiler : Compiler} {depth : Nat} {around : Surroundings}

/-- What a clause makes of a source within the limit stays within the limit. -/
def ClauseBounded (compiler : Compiler) (clause : Query → Compile Query) : Prop :=
  ∀ depth around source, depth ≤ compiler.settings.maxDepth → around.AtMost depth depth →
    source.Within compiler.settings.maxDepth around →
    (clause source).AtDepth depth (Query.Within compiler.settings.maxDepth around)

theorem optionally_bounded {α : Type} {clause : α → Query → Compile Query}
    (each : ∀ value, compiler.ClauseBounded (clause value)) (value? : Option α) :
    compiler.ClauseBounded (optionally clause value?) := by
  cases value? with
  | none => exact fun _ _ _ _ _ within => .done within
  | some value => exact each value

/-! ## Include trees -/

theorem includedTarget_atDepth (type : ResourceType) (name path : String) :
    (compiler.includedTarget type name path).AtDepth depth fun _ => True :=
  AtDepth.lookup fun _ _ => (AtDepth.ofExcept _).weaken fun _ _ => trivial

mutual

theorem includePaths_atDepth : ∀ (tree : Include) (type : ResourceType) (above : List String)
    (depth : Nat), (compiler.includePaths type above tree).AtDepth depth
      fun _ => ∀ names ∈ tree.paths, depth + names.length ≤ compiler.settings.maxDepth
  | ⟨elements⟩, type, above, depth => by
    rw [includePaths, Include.paths]
    exact includeElements_atDepth elements type above depth

theorem includeElements_atDepth : ∀ (elements : List (String × Include)) (type : ResourceType)
    (above : List String) (depth : Nat),
    (compiler.includeElements type above elements).AtDepth depth
      fun _ => ∀ names ∈ Include.elementPaths elements,
        depth + names.length ≤ compiler.settings.maxDepth
  | [], type, above, depth => by
    rw [includeElements]
    exact .done fun names member => by cases member
  | (name, below) :: rest, type, above, depth => by
    rw [includeElements]
    refine AtDepth.bind (?here : AtDepth depth _ fun _ => depth < compiler.settings.maxDepth ∧
      ∀ names ∈ below.paths, depth + 1 + names.length ≤ compiler.settings.maxDepth) fun _ fits => ?_
    case here =>
      refine AtDepth.deeper fun entered => AtDepth.bind (includedTarget_atDepth _ _ _) fun _ _ => ?_
      split
      · rename_i isLeaf
        rw [Include.paths_eq_nil.mpr isLeaf]
        exact .done ⟨entered, fun names member => by cases member⟩
      · exact (includePaths_atDepth below _ _ _).weaken fun _ fits => ⟨entered, fits⟩
    · refine (includeElements_atDepth rest type above depth).map fun _ later => ?_
      obtain ⟨entered, inner⟩ := fits
      rw [Include.elementPaths]
      split
      · exact List.forall_mem_cons.mpr ⟨entered, later⟩
      · rename_i path others hasPaths
        rw [← hasPaths]
        refine List.forall_mem_append.mpr ⟨List.forall_mem_map.mpr fun names member => ?_, later⟩
        have short := inner names member
        rw [List.length_cons]
        omega

end

theorem pathLength_joined {names : List String} (named : names ≠ [])
    (arePublic : ∀ name ∈ names, isPublicName name = true) :
    pathLength (Text.joined "." names) = names.length := by
  have noStops : ∀ name ∈ names, '.' ∉ name.toList := fun name member =>
    not_mem_of_isPublicName (arePublic name member) (by decide)
  rw [pathLength, Text.pieces_joined (by decide) named noStops, List.length_map]

theorem withPaths_within {limit : Nat} {paths : List String}
    (few : around.AtMost (limit + 1) limit)
    (short : ∀ path ∈ paths, around.queries + pathLength path ≤ limit) {source : Query}
    (within : source.Within limit around) : (withPaths source paths).Within limit around := by
  unfold withPaths
  induction paths generalizing source with
  | nil => exact within
  | cons path rest ih =>
    obtain ⟨here, later⟩ := List.forall_mem_cons.mp short
    exact ih later (Point.withPath_within few here within)

theorem includeClause_bounded (coherent : compiler.schema.Coherent) (tree : Include)
    {type : ResourceType} (known : type ∈ compiler.schema.types) :
    compiler.ClauseBounded fun source => compiler.includeClause source tree type := by
  intro depth around source shallow few within names result after ended
  obtain ⟨paths, between, arePaths, ended⟩ := outcome?_of_bind ended
  obtain ⟨fits, same⟩ := includePaths_atDepth tree type [] depth names paths between arePaths
  obtain ⟨isPaths, arePublic⟩ := includePaths_eq coherent tree type [] paths
    (yields_iff.mpr ⟨_, _, arePaths⟩) known
  cases ended
  refine ⟨withPaths_within (few.loose.limit shallow) (fun path member => ?_) within, same⟩
  rw [isPaths] at member
  obtain ⟨chain, isChain, rfl⟩ := List.mem_map.mp member
  have length : pathLength (pathText [] chain) = chain.length :=
    pathLength_joined (Include.ne_nil_of_mem_paths tree chain isChain) (arePublic chain isChain)
  have short := fits chain isChain
  have outer := few.queries
  omega

/-! ## Clauses with a lambda -/

theorem lambdaClause_bounded {element : String} (wrap : Query → Lambda → Query)
    (body : Expr → ResourceType → Compile Expr) (type : ResourceType)
    (bodyBounded : compiler.Bounded body)
    (inside : ∀ around source lambda, (Point.query around (wrap source lambda)).inside =
      [.query around source, .ofLambda around lambda])
    (noPath : ∀ around source lambda, (Point.query around (wrap source lambda)).segments = 0) :
    compiler.ClauseBounded fun source => withVariable element fun v =>
      body v.accessor type >>= fun built => done (wrap source (v.lambda built)) := by
  intro depth around source shallow few within
  refine AtDepth.withVariable fun v => ?_
  have built := bodyBounded depth around.inLambda v.accessor type shallow few.inLambda
    (v.accessor_reaches depth)
  refine built.map fun body bodyWithin => ?_
  refine Point.query_within (few.loose.limit shallow) (noPath _ _ _) ?_
  rw [inside]
  exact List.forall_mem_cons.mpr ⟨within, List.forall_mem_singleton.mpr bodyWithin⟩

theorem filterClause_bounded (filter : Filter) (type : ResourceType) :
    compiler.ClauseBounded fun source => withVariable type.element fun v =>
      compiler.filterClause source filter v type :=
  lambdaClause_bounded .filter (compiler.predicate filter) type (predicate_bounded filter)
    (fun _ _ _ => rfl) fun _ _ _ => rfl

theorem sortValue_atDepth (target : Target) {current : Expr} {owner : ResourceType}
    (shallow : depth ≤ compiler.settings.maxDepth)
    (few : around.AtMost (depth + 1) depth) (reaches : current.Reaches depth) :
    (compiler.sortValue target current owner).AtDepth depth
      (Expr.Within compiler.settings.maxDepth around) := by
  have allowed := few.limit shallow
  cases target with
  | field chain =>
    refine (singleValue_atDepth shallow reaches).bind fun found ends => ?_
    obtain ⟨value, resolved⟩ := found
    simp only
    split
    · exact .done (ends.within (Nat.le_refl _) allowed)
    · exact .fail _ _
    · exact .fail _ _
  | count chain =>
    refine (singleValue_atDepth shallow reaches).bind fun found ends => ?_
    exact AtDepth.lookup fun _ _ =>
      .done (count_within allowed (ends.within (Nat.le_refl _) allowed))

theorem orderByKeys_atDepth (v : Variable) (type : ResourceType)
    (shallow : depth ≤ compiler.settings.maxDepth) (few : around.AtMost depth depth) :
    ∀ (keys : List SortKey) (thenBy : Bool) (query : Query),
      query.Within compiler.settings.maxDepth around →
      (compiler.orderByKeys v type keys thenBy query).AtDepth depth
        (Query.Within compiler.settings.maxDepth around) := by
  intro keys
  induction keys with
  | nil => exact fun _ _ within => .done within
  | cons key rest ih =>
    intro thenBy query within
    rw [orderByKeys]
    refine (sortValue_atDepth key.target shallow few.inLambda (v.accessor_reaches depth)).bind
      fun value valueWithin => ih true _ ?_
    refine Point.query_within (few.loose.limit shallow) rfl ?_
    exact List.forall_mem_cons.mpr ⟨within, List.forall_mem_singleton.mpr valueWithin⟩

theorem sortClause_bounded (sorting : Sorting) (type : ResourceType) :
    compiler.ClauseBounded fun source => withVariable type.element fun v =>
      compiler.sortClause source sorting v type := by
  intro depth around source shallow few within
  refine AtDepth.withVariable fun v => ?_
  unfold sortClause
  split
  · exact .fail _ _
  · exact orderByKeys_atDepth v type shallow few _ _ _ within

theorem pageClause_bounded (page : Page) :
    compiler.ClauseBounded fun source => done (pageClause source page) := by
  intro depth around source shallow few within
  have allowed := few.loose.limit shallow
  have skipped : (if 0 < page.skip then Query.skip source page.skip else source).Within
      compiler.settings.maxDepth around := by
    split
    · exact Point.query_within allowed rfl (List.forall_mem_singleton.mpr within)
    · exact within
  refine .done ?_
  unfold pageClause
  cases page.take with
  | none => exact skipped
  | some count => exact Point.query_within allowed rfl (List.forall_mem_singleton.mpr skipped)

/-! ## Projections -/

def BindingBounded (compiler : Compiler) (binding : Binding) : Prop :=
  ∀ depth around current resolved, depth ≤ compiler.settings.maxDepth →
    around.AtMost (depth + 1) depth → current.Reaches depth →
    (binding.value current resolved).AtDepth depth (Expr.Within compiler.settings.maxDepth around)

theorem plainBinding_bounded (name : String) : compiler.BindingBounded (plainBinding name) := by
  intro depth around current resolved shallow few reaches
  exact .done ((resolved.access_reaches reaches).within (Nat.succ_le_succ shallow)
    (few.limit shallow))

theorem resolveBindings_atDepth (type : ResourceType) (bindings : List Binding) :
    (compiler.resolveBindings type bindings).AtDepth depth
      fun resolved => ∀ pair ∈ resolved, pair.1 ∈ bindings := by
  induction bindings with
  | nil => exact .done fun pair member => by cases member
  | cons binding rest ih =>
    rw [resolveBindings]
    refine AtDepth.lookup fun field _ => ih.map fun others found => ?_
    refine List.forall_mem_cons.mpr ⟨List.mem_cons_self, fun pair member => ?_⟩
    exact List.mem_cons_of_mem _ (found pair member)

theorem boundValues_atDepth {current : Expr} (shallow : depth ≤ compiler.settings.maxDepth)
    (few : around.AtMost (depth + 1) depth) (reaches : current.Reaches depth)
    {pairs : List (Binding × ResolvedField)}
    (each : ∀ pair ∈ pairs, compiler.BindingBounded pair.1) :
    (boundValues current pairs).AtDepth depth
      fun values => ∀ entry ∈ values, entry.2.Within compiler.settings.maxDepth around := by
  refine AtDepth.traverse fun pair member => ?_
  have value := each pair member depth around current pair.2 shallow few reaches
  exact value.map fun _ within => within

theorem record_bounded {bindings : List Binding}
    (each : ∀ binding ∈ bindings, compiler.BindingBounded binding) :
    compiler.Bounded (compiler.record bindings) := by
  intro depth around current type shallow few reaches
  have eachOfAll : ∀ binding ∈ compiler.withIdentity type bindings,
      compiler.BindingBounded binding :=
    forall_withIdentity each (plainBinding_bounded type.idField)
  refine (resolveBindings_atDepth type _).bind fun resolved found => ?_
  refine (boundValues_atDepth shallow few reaches fun pair member =>
    eachOfAll pair.1 (found pair (List.mem_mergeSort.mp member))).map fun values within => ?_
  exact Point.operator_within (few.limit shallow) rfl (List.forall_mem_map.mpr within)

/-! ## Nested layers -/

/-- A projection of a related resource goes one level deeper, but stays in the lambda. -/
theorem nestedRecord_atDepth {body : Expr → ResourceType → Compile Expr}
    (bodyBounded : compiler.Bounded body) {value : Expr}
    (shallow : depth ≤ compiler.settings.maxDepth) (few : around.AtMost (depth + 1) depth)
    (reaches : value.Reaches (depth + 1)) (target : ResourceType) (path : String) :
    (compiler.nestedRecord value target path body).AtDepth depth
      (Expr.Within compiler.settings.maxDepth around) := by
  have allowed := few.limit shallow
  unfold nestedRecord
  refine AtDepth.deeper fun below => ?_
  have built := bodyBounded (depth + 1) around value target below few.entered.loose reaches
  refine built.mapError.map fun record within => ?_
  have missing : Expr.null.Within compiler.settings.maxDepth around := constant_within allowed .null
  have test := compare_within .equal allowed (reaches.within (Nat.succ_le_succ shallow) allowed)
    missing
  exact Point.operator_within allowed rfl (by simp [Point.inside, test, missing, within])

theorem nestedRows_atDepth {apply : Query → ResourceType → Compile Query} {target : ResourceType}
    (applyBounded : compiler.ClauseBounded fun source => apply source target) {value : Expr}
    (shallow : depth ≤ compiler.settings.maxDepth) (few : around.AtMost (depth + 1) depth)
    (reaches : value.Reaches (depth + 1)) (path : String) :
    (compiler.nestedRows value target path apply).AtDepth depth
      (Expr.Within compiler.settings.maxDepth around) := by
  have allowed := few.limit shallow
  unfold nestedRows
  refine AtDepth.deeper fun below => ?_
  have few' : around.inQuery.AtMost (depth + 1) (depth + 1) := few.inQuery
  have allowed' := few'.loose.limit below
  have source : (Query.navigation value target.element).Within compiler.settings.maxDepth
      around.inQuery :=
    Point.query_within allowed' rfl (List.forall_mem_singleton.mpr
      (reaches.within (Nat.succ_le_succ shallow) allowed'))
  have rows := applyBounded (depth + 1) around.inQuery _ below few' source
  exact rows.mapError.map fun query within =>
    Point.operator_within allowed rfl (List.forall_mem_singleton.mpr within)

/-- A projection that may be absent, and is bounded when it is not. -/
def BodyBounded (compiler : Compiler)
    (body? : Option (Expr → ResourceType → Compile Expr)) : Prop :=
  ∀ body, body? = some body → compiler.Bounded body

theorem nestedValue_bounded {layer : Layer} {name : String}
    {apply : Query → ResourceType → Compile Query}
    {body? : Option (Expr → ResourceType → Compile Expr)}
    (applyBounded : ∀ type ∈ compiler.schema.types,
      compiler.ClauseBounded fun source => apply source type)
    (bodyBounded : compiler.BodyBounded body?) :
    compiler.BindingBounded ⟨name, compiler.nestedValue layer apply body?⟩ := by
  intro depth around accessor resolved shallow few reaches
  have value := resolved.access_reaches reaches
  simp only
  unfold nestedValue
  cases resolved.kind with
  | «attribute» _ _ => exact .fail _ _
  | toOne _ =>
    refine AtDepth.lookup fun target _ => ?_
    split
    · exact .fail _ _
    · cases body? with
      | none =>
        exact .done (value.within (Nat.succ_le_succ shallow) (few.limit shallow))
      | some body => exact nestedRecord_atDepth (bodyBounded body rfl) shallow few value target _
  | toMany _ =>
    refine AtDepth.lookup fun target isTarget => ?_
    obtain ⟨_, known, _⟩ := targetOf?_of_targetOf (nestedTarget_found isTarget)
    exact nestedRows_atDepth (applyBounded target known) shallow few value _

/-! ## Layers -/

mutual

/-- A layer applied to a source within the limit stays within the limit. -/
theorem applyLayer_bounded (coherent : compiler.schema.Coherent) :
    ∀ (layer : Layer), ∀ type ∈ compiler.schema.types,
      compiler.ClauseBounded fun source => compiler.applyLayer layer source type
  | ⟨name, tree, filter, sort, page, projection⟩, type, known, depth, around, source, shallow,
      few, within => by
    have bodyBounded := projectionBody_bounded coherent projection
    simp only [applyLayer]
    split
    · refine (optionally_bounded (fun tree => includeClause_bounded coherent tree known) tree
        depth around source shallow few within).bind fun included within => ?_
      refine (optionally_bounded (fun filter => filterClause_bounded filter type) filter
        depth around included shallow few within).bind fun filtered within => ?_
      refine (optionally_bounded (fun sorting => sortClause_bounded sorting type) sort
        depth around filtered shallow few within).bind fun sorted within => ?_
      refine (optionally_bounded pageClause_bounded page
        depth around sorted shallow few within).bind fun paged within => ?_
      cases isBody : compiler.projectionBody projection with
      | none => exact .done within
      | some body =>
        exact lambdaClause_bounded .select body type (bodyBounded body isBody)
          (fun _ _ _ => rfl) (fun _ _ _ => rfl) depth around paged shallow few within
    · exact .fail _ _

theorem layerBody_bounded (coherent : compiler.schema.Coherent) :
    ∀ layer : Layer, compiler.BodyBounded (compiler.layerBody layer)
  | ⟨_, _, _, _, _, projection⟩ => by
    rw [layerBody]
    exact projectionBody_bounded coherent projection

theorem projectionBody_bounded (coherent : compiler.schema.Coherent) :
    ∀ projection : Option (List Selection),
      compiler.BodyBounded (compiler.projectionBody projection)
  | none => by
    rw [projectionBody]
    intro body isBody
    cases isBody
  | some selections => by
    rw [projectionBody]
    split
    · intro body isBody
      cases isBody
    · intro body isBody
      cases isBody
      exact record_bounded (bindings_bounded coherent selections)

theorem bindings_bounded (coherent : compiler.schema.Coherent) : ∀ selections : List Selection,
    ∀ binding ∈ compiler.bindings selections, compiler.BindingBounded binding
  | [] => by
    rw [bindings]
    intro binding member
    cases member
  | selection :: rest => by
    rw [bindings]
    exact List.forall_mem_cons.mpr
      ⟨binding_bounded coherent selection, bindings_bounded coherent rest⟩

theorem binding_bounded (coherent : compiler.schema.Coherent) : ∀ selection : Selection,
    compiler.BindingBounded (compiler.binding selection)
  | .field name => by
    rw [binding]
    exact plainBinding_bounded name
  | .nested name layer => by
    rw [binding]
    exact nestedValue_bounded (applyLayer_bounded coherent layer)
      (layerBody_bounded coherent layer)

end

end Compiler

end LayeredQuery
