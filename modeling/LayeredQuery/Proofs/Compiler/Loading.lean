import LayeredQuery.Proofs.Compiler.Layer
import LayeredQuery.Proofs.Request.Ordered

/-!
# What compiled layers load

A compiled query loads an include tree when the engine reads that tree back from the paths of the
query. Only the include clause of a layer adds paths, and the clauses after it keep them. A layer
nested at a relationship to many becomes a query of its own, which stands in the plan under the
names that the layer is nested under.
-/

set_option autoImplicit false

namespace LayeredQuery

def Layer.included (layer : Layer) : Include :=
  layer.tree.getD .empty

/-- A query from whose paths a tree is read back. The paths are distinct, and none goes on where
another one ends. -/
structure Query.Loads (query : Query) (tree : Include) : Prop where
  readBack : Include.ofChains (query.paths.map Chain.ofText) = .ok tree
  distinct : query.paths.Nodup
  apart : (query.paths.map fun path => (Chain.ofText path).names).Pairwise Include.Apart

/-- A layer nested in another one at a relationship to many, under the names of the relationships
that lead to it through the projections. -/
inductive Layer.Nests (schema : Schema) : Layer → ResourceType → List String → Layer → Prop
  | toMany {layer inner : Layer} {type : ResourceType} {name : String} {resolved : ResolvedField}
      {selections : List Selection} (projected : layer.projection = some selections)
      (selected : .nested name inner ∈ selections)
      (found : schema.fieldOn? type name = some resolved)
      (many : resolved.kind.isToMany = true) : Layer.Nests schema layer type [name] inner
  | through {layer inner nested : Layer} {type target : ResourceType} {name : String}
      {resolved : ResolvedField} {selections : List Selection} {path : List String}
      (projected : layer.projection = some selections)
      (selected : .nested name inner ∈ selections)
      (found : schema.fieldOn? type name = some resolved)
      (related : schema.targetOf? resolved = some target)
      (further : Layer.Nests schema inner target path nested) :
      Layer.Nests schema layer type (name :: path) nested

/-- A query whose rows stand in a value under the names on a path. -/
inductive Expr.Holds : Expr → List String → Query → Prop
  | rows (query : Query) : Expr.Holds (.rows query) [] query
  | selected {paged query : Query} {selector : Lambda} {path : List String}
      (holds : Expr.Holds selector.body path query) :
      Expr.Holds (.rows (.select paged selector)) path query
  | entry {element name : String} {bindings : List (String × Expr)} {value : Expr}
      {path : List String} {query : Query} (bound : (name, value) ∈ bindings)
      (holds : Expr.Holds value path query) :
      Expr.Holds (.record element bindings) (name :: path) query
  | present {test ifTrue ifFalse : Expr} {path : List String} {query : Query}
      (holds : Expr.Holds ifFalse path query) :
      Expr.Holds (.conditional test ifTrue ifFalse) path query

namespace Compiler

variable {compiler : Compiler}

/-! ## Paths of clauses -/

theorem withPaths_paths (paths : List String) :
    ∀ source : Query, (withPaths source paths).paths = source.paths ++ paths := by
  unfold withPaths
  induction paths with
  | nil => exact fun source => (List.append_nil _).symm
  | cons path rest ih =>
    intro source
    rw [List.foldl_cons, ih, Query.paths, List.append_assoc, List.singleton_append]

theorem orderByKeys_paths {v : Variable} {type : ResourceType} :
    ∀ (keys : List SortKey) (thenBy : Bool) (source query : Query),
      (compiler.orderByKeys v type keys thenBy source).Yields query →
      query.paths = source.paths := by
  intro keys
  induction keys with
  | nil =>
    intro thenBy source query yielded
    rw [Compile.yields_done yielded]
  | cons key rest ih =>
    intro thenBy source query yielded
    obtain ⟨value, _, yielded⟩ := Compile.yields_bind yielded
    rw [ih true _ query yielded, Query.paths]

theorem sortClause_paths {sorting : Sorting} {v : Variable} {type : ResourceType}
    {source query : Query} (yielded : (compiler.sortClause source sorting v type).Yields query) :
    query.paths = source.paths := by
  unfold sortClause at yielded
  split at yielded
  · exact absurd yielded Compile.not_yields_fail
  · exact orderByKeys_paths _ _ _ _ yielded

theorem filterClause_paths {filter : Filter} {v : Variable} {type : ResourceType}
    {source query : Query} (yielded : (compiler.filterClause source filter v type).Yields query) :
    query.paths = source.paths := by
  obtain ⟨body, _, yielded⟩ := Compile.yields_bind yielded
  rw [← Compile.yields_done yielded, Query.paths]

theorem pageClause_paths (source : Query) (page : Page) :
    (pageClause source page).paths = source.paths := by
  unfold pageClause
  split <;> split <;> simp only [Query.paths]

theorem optionally_paths {α : Type} {clause : α → Query → Compile Query} {value? : Option α}
    {source query : Query}
    (each : ∀ {value source query}, (clause value source).Yields query →
      query.paths = source.paths)
    (yielded : (optionally clause value? source).Yields query) : query.paths = source.paths := by
  cases value? with
  | none => rw [Compile.yields_done yielded]
  | some value => exact each yielded

/-! ## Loading -/

theorem loads_of_chains {query : Query} {tree : Include} (ordered : tree.isOrdered = true)
    (chains : query.paths.map Chain.ofText = tree.toChains) : query.Loads tree := by
  have names : (query.paths.map fun path => (Chain.ofText path).names) = tree.paths := by
    have mapped := congrArg (List.map Chain.names) chains
    rw [Include.toChains, List.map_map, List.map_map] at mapped
    exact mapped.trans (List.map_id _)
  have apart : (query.paths.map fun path => (Chain.ofText path).names).Pairwise Include.Apart :=
    names ▸ Include.paths_apart tree ordered
  refine ⟨?_, ?_, apart⟩
  · rw [chains, Include.ofChains_toChains, Include.leafTree_eq tree ordered]
  · refine (List.pairwise_map.mp apart).imp fun apart same => ?_
    exact apart.1 (same ▸ List.prefix_refl _)

theorem Prepares.chains (coherent : compiler.schema.Coherent) {layer : Layer} {type : ResourceType}
    {source paged : Query} (prepares : compiler.Prepares layer type source paged)
    (known : type ∈ compiler.schema.types) (bare : source.paths = []) :
    paged.paths.map Chain.ofText = layer.included.toChains := by
  obtain ⟨included, filtered, sorted, isIncluded, isFiltered, isSorted, isPaged⟩ := prepares
  have fromPaged : paged.paths = sorted.paths := optionally_paths (fun yielded => by
    rw [← Compile.yields_done yielded, pageClause_paths]) isPaged
  have fromSorted : sorted.paths = filtered.paths := optionally_paths (fun yielded => by
    obtain ⟨v, yielded⟩ := Compile.yields_withVariable yielded
    exact sortClause_paths yielded) isSorted
  have fromFiltered : filtered.paths = included.paths := optionally_paths (fun yielded => by
    obtain ⟨v, yielded⟩ := Compile.yields_withVariable yielded
    exact filterClause_paths yielded) isFiltered
  rw [fromPaged, fromSorted, fromFiltered, Layer.included]
  cases given : layer.tree with
  | none =>
    rw [given] at isIncluded
    rw [← Compile.yields_done isIncluded, bare]
    rfl
  | some tree =>
    rw [given] at isIncluded
    obtain ⟨paths, arePaths, isIncluded⟩ := Compile.yields_bind isIncluded
    rw [← Compile.yields_done isIncluded, withPaths_paths, bare, List.nil_append]
    exact map_ofText_includePaths coherent arePaths known

theorem Prepares.loads (coherent : compiler.schema.Coherent) {layer : Layer} {type : ResourceType}
    {source paged : Query} (prepares : compiler.Prepares layer type source paged)
    (known : type ∈ compiler.schema.types) (bare : source.paths = [])
    (ordered : layer.included.isOrdered = true) : paged.Loads layer.included :=
  loads_of_chains ordered (prepares.chains coherent known bare)

/-- A compiled layer loads the tree of the layer. -/
theorem applyLayer_loads (coherent : compiler.schema.Coherent) {layer : Layer}
    {type : ResourceType} {source query : Query}
    (yielded : (compiler.applyLayer layer source type).Yields query)
    (known : type ∈ compiler.schema.types) (bare : source.paths = [])
    (ordered : layer.included.isOrdered = true) : query.Loads layer.included := by
  obtain ⟨paged, prepares, ⟨_, rfl⟩ | ⟨_, _, _, _, _, rfl⟩⟩ := applyLayer_cases yielded
  · exact prepares.loads coherent known bare ordered
  · obtain ⟨readBack, distinct, apart⟩ := prepares.loads coherent known bare ordered
    exact ⟨readBack, distinct, apart⟩

/-! ## Nested layers -/

theorem layerBody_eq (layer : Layer) :
    compiler.layerBody layer = compiler.projectionBody layer.projection := by
  cases layer
  rw [layerBody]

theorem layerBody_of_selected {layer inner : Layer} {name : String} {selections : List Selection}
    (projected : layer.projection = some selections) (selected : .nested name inner ∈ selections) :
    compiler.layerBody layer = some fun accessor type =>
      compiler.record (compiler.bindings selections) accessor type := by
  rw [layerBody_eq, projected, projectionBody_some (List.ne_nil_of_mem selected)]

theorem layerBody_of_nests (compiler : Compiler) {layer nested : Layer} {type : ResourceType}
    {path : List String}
    (nests : layer.Nests compiler.schema type path nested) :
    ∃ body, compiler.layerBody layer = some body := by
  cases nests with
  | toMany projected selected => exact ⟨_, layerBody_of_selected projected selected⟩
  | through projected selected => exact ⟨_, layerBody_of_selected projected selected⟩

theorem applyLayer_of_layerBody {layer : Layer} {source query : Query} {type : ResourceType}
    {body : Expr → ResourceType → Compile Expr}
    (yielded : (compiler.applyLayer layer source type).Yields query)
    (isBody : compiler.layerBody layer = some body) :
    ∃ paged accessor selector, (body accessor type).Yields (Lambda.body selector) ∧
      query = .select paged selector := by
  rw [layerBody_eq] at isBody
  obtain ⟨paged, _, ⟨noBody, _⟩ | ⟨body', element, v, isBody', isElement, rfl⟩⟩ :=
    applyLayer_cases yielded
  · cases noBody.symm.trans isBody
  · cases isBody'.symm.trans isBody
    exact ⟨paged, v.accessor, v.lambda element, isElement, rfl⟩

theorem record_bound {selections : List Selection} {accessor built : Expr} {type : ResourceType}
    (yielded : (compiler.record (compiler.bindings selections) accessor type).Yields built)
    {selection : Selection} (selected : selection ∈ selections) :
    ∃ bindings resolved value, built = .record type.element bindings ∧
      compiler.schema.fieldOn? type selection.name = some resolved ∧
      ((compiler.binding selection).value accessor resolved).Yields value ∧
      (selection.name, value) ∈ bindings := by
  obtain ⟨resolved, isResolved, yielded⟩ := Compile.yields_bind yielded
  rw [withIdentity_bindings] at isResolved
  obtain ⟨pairs, firsts, rfl, found⟩ := resolveBindings_found isResolved
  obtain ⟨values, areValues, yielded⟩ := Compile.yields_bind yielded
  have isSelected : selection ∈ pairs.map Prod.fst := by
    rw [firsts, allSelections]
    split
    · exact List.mem_append_left _ selected
    · exact selected
  obtain ⟨⟨_, field⟩, isPair, rfl⟩ := List.mem_map.mp isSelected
  obtain ⟨entry, isEntry, yieldsEntry⟩ := Compile.yields_traverse areValues
    (compiler.binding _, field) (List.mem_mergeSort.mpr (List.mem_map_of_mem isPair))
  obtain ⟨value, isValue, yieldsEntry⟩ := Compile.yields_bind yieldsEntry
  rw [← Compile.yields_done yieldsEntry] at isEntry
  refine ⟨values, field, value, (Compile.yields_done yielded).symm, found _ isPair, isValue, ?_⟩
  rw [← binding_name]
  exact isEntry

theorem nestedValue_toMany {layer : Layer} {apply : Query → ResourceType → Compile Query}
    {body? : Option (Expr → ResourceType → Compile Expr)} {accessor value : Expr}
    {resolved : ResolvedField}
    (yielded : (compiler.nestedValue layer apply body? accessor resolved).Yields value)
    (many : resolved.kind.isToMany = true) :
    ∃ target items query, compiler.schema.targetOf? resolved = some target ∧
      target ∈ compiler.schema.types ∧ value = .rows query ∧
      (apply (.navigation items target.element) target).Yields query := by
  unfold nestedValue at yielded
  cases kind : resolved.kind with
  | «attribute» _ _ =>
    rw [kind] at many
    cases many
  | toOne _ =>
    rw [kind] at many
    cases many
  | toMany _ =>
    simp only [kind] at yielded
    obtain ⟨target, isTarget, yielded⟩ := Compile.yields_bind yielded
    obtain ⟨isTarget, known, _⟩ :=
      targetOf?_of_targetOf (nestedTarget_found (Compile.yields_ofExcept isTarget))
    obtain ⟨query, isQuery, yielded⟩ := Compile.yields_bind (yields_deeper yielded)
    exact ⟨target, _, query, isTarget, known, (Compile.yields_done yielded).symm,
      Compile.yields_mapError isQuery⟩

theorem nestedValue_toOne {layer : Layer} {apply : Query → ResourceType → Compile Query}
    {body : Expr → ResourceType → Compile Expr} {accessor value : Expr} {resolved : ResolvedField}
    {target : ResourceType}
    (yielded : (compiler.nestedValue layer apply (some body) accessor resolved).Yields value)
    (single : resolved.kind.isToMany = false)
    (related : compiler.schema.targetOf? resolved = some target) :
    ∃ test built, value = .conditional test .null built ∧
      (body (resolved.access accessor) target).Yields built := by
  unfold nestedValue at yielded
  cases kind : resolved.kind with
  | «attribute» _ _ =>
    simp only [kind] at yielded
    exact absurd yielded Compile.not_yields_fail
  | toMany _ =>
    rw [kind] at single
    cases single
  | toOne _ =>
    simp only [kind] at yielded
    obtain ⟨found, isTarget, yielded⟩ := Compile.yields_bind yielded
    obtain ⟨isTarget, _, _⟩ :=
      targetOf?_of_targetOf (nestedTarget_found (Compile.yields_ofExcept isTarget))
    cases isTarget.symm.trans related
    split at yielded
    · exact absurd yielded Compile.not_yields_fail
    · obtain ⟨built, isBuilt, yielded⟩ := Compile.yields_bind (yields_deeper yielded)
      exact ⟨_, built, (Compile.yields_done yielded).symm, Compile.yields_mapError isBuilt⟩

/-- Every layer nested at a relationship to many becomes a query that loads its tree. -/
theorem nests_loads (coherent : compiler.schema.Coherent) {layer nested : Layer}
    {type : ResourceType} {path : List String}
    (nests : layer.Nests compiler.schema type path nested) :
    ∀ {body : Expr → ResourceType → Compile Expr} {accessor built : Expr},
      compiler.layerBody layer = some body → (body accessor type).Yields built →
      ∃ query, built.Holds path query ∧
        (nested.included.isOrdered = true → query.Loads nested.included) := by
  induction nests with
  | toMany projected selected found many =>
    intro body accessor built isBody isBuilt
    cases isBody.symm.trans (layerBody_of_selected projected selected)
    obtain ⟨bindings, resolved, value, rfl, isField, isValue, bound⟩ :=
      record_bound isBuilt selected
    cases isField.symm.trans found
    rw [binding] at isValue
    obtain ⟨target, items, query, _, known, rfl, isQuery⟩ := nestedValue_toMany isValue many
    refine ⟨query, .entry bound (.rows query), applyLayer_loads coherent isQuery known ?_⟩
    rw [Query.paths]
  | @through layer inner nested type target name resolved selections path projected selected found
      related further ih =>
    intro body accessor built isBody isBuilt
    cases isBody.symm.trans (layerBody_of_selected projected selected)
    obtain ⟨bindings, resolved', value, rfl, isField, isValue, bound⟩ :=
      record_bound isBuilt selected
    cases isField.symm.trans found
    rw [binding] at isValue
    obtain ⟨innerBody, isInner⟩ := layerBody_of_nests compiler further
    cases many : resolved.kind.isToMany with
    | true =>
      obtain ⟨target', items, query, isTarget, _, rfl, isQuery⟩ := nestedValue_toMany isValue many
      cases isTarget.symm.trans related
      obtain ⟨paged, accessor, selector, isElement, rfl⟩ := applyLayer_of_layerBody isQuery isInner
      obtain ⟨query, holds, loads⟩ := ih isInner isElement
      exact ⟨query, .entry bound (.selected holds), loads⟩
    | false =>
      rw [isInner] at isValue
      obtain ⟨test, element, rfl, isElement⟩ := nestedValue_toOne isValue many related
      obtain ⟨query, holds, loads⟩ := ih isInner isElement
      exact ⟨query, .entry bound (.present holds), loads⟩

end Compiler

end LayeredQuery
