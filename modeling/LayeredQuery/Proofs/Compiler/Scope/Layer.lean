import LayeredQuery.Proofs.Compiler.Scope.Predicate

/-!
# Scopes of compiled layers

Each clause of a layer keeps a source well scoped and adds the binders of its own lambdas to those
of the source. All keys of a sort share one variable, and their lambdas one binder. A nested layer
starts from an accessor of the element around it, so its plan fits the scope of that element.
-/

set_option autoImplicit false

namespace LayeredQuery

structure Query.Fits (query : Query) (scope before after : List String) : Prop where
  wellScoped : query.wellScoped scope = true
  issues : Issues before after query.binders

theorem Issues.chain {before after : List String} {name : String}
    (issues : Issues before after [[name]]) (more : Nat) :
    Issues before after [List.replicate (more + 1) name] where
  kept := issues.kept
  fresh binder member other named := by
    obtain rfl := List.mem_singleton.mp member
    obtain rfl := List.eq_of_mem_replicate named
    exact issues.fresh_name
  covered other member := by simpa [List.mem_replicate] using issues.covered other member
  apart := List.pairwise_singleton _ _
  distinct := issues.distinct

namespace Compiler

open Compile

variable {compiler : Compiler} {scope : List String}

/-- A clause that fits a scope whenever the source it is applied to does. -/
def ClauseScoped (clause : Query → Compile Query) : Prop :=
  ∀ scope start source before result after, (clause source).outcome? before = some (result, after) →
    scope ⊆ start → source.Fits scope start before.names.issued →
    result.Fits scope start after.names.issued

theorem optionally_scoped {α : Type} {clause : α → Query → Compile Query}
    (each : ∀ value, ClauseScoped (clause value)) (value? : Option α) :
    ClauseScoped (optionally clause value?) := by
  cases value? with
  | none =>
    intro scope start source before result after ended _ fits
    cases ended
    exact fits
  | some value => exact each value

theorem lambdaClause_scoped {element : String} (wrap : Query → Lambda → Query)
    (body : Expr → Compile Expr)
    (bodyScoped : ∀ scope current, current.Reads scope → (body current).Fits scope)
    (wellScoped : ∀ source lambda scope,
      (wrap source lambda).wellScoped scope = (source.wellScoped scope && lambda.wellScoped scope))
    (binders : ∀ source lambda,
      (wrap source lambda).binders = source.binders ++ [lambda.parameter] :: lambda.inner) :
    ClauseScoped fun source => withVariable element fun v =>
      body v.accessor >>= fun built => done (wrap source (v.lambda built)) := by
  intro scope start source before result after ended within fits
  obtain ⟨lambda, rfl, lambdaFits⟩ := lambda_fits_of_withVariable
    (fun v => bodyScoped _ _ (v.accessor_reads scope))
    (List.Subset.trans within fits.issues.kept) ended
  refine ⟨?_, ?_⟩
  · simp [wellScoped, fits.wellScoped, lambdaFits.wellScoped]
  · rw [binders]
    exact fits.issues.append lambdaFits.issues

/-! ## Clauses -/

mutual

theorem includePaths_looks : ∀ (tree : Include) (type : ResourceType) (above : List String),
    (compiler.includePaths type above tree).Looks fun _ => True
  | ⟨elements⟩, type, above => by
    rw [includePaths]
    exact includeElements_looks elements type above

theorem includeElements_looks :
    ∀ (elements : List (String × Include)) (type : ResourceType) (above : List String),
      (compiler.includeElements type above elements).Looks fun _ => True
  | [], type, above => by
    rw [includeElements]
    exact looks_done trivial
  | (name, below) :: rest, type, above => by
    rw [includeElements]
    refine looks_bind (P := fun _ => True) (looks_deeper ?_) fun here _ => ?_
    · refine looks_bind (P := fun _ => True) ?_ fun target _ => ?_
      · unfold includedTarget
        refine looks_bind (looks_ofExcept _) fun resolved _ => ?_
        exact fun before value after ended =>
          ⟨trivial, (looks_ofExcept _ before value after ended).2⟩
      · split
        · exact looks_done trivial
        · exact includePaths_looks below target (above ++ [name])
    · refine looks_bind (includeElements_looks rest type above) fun others _ => ?_
      exact looks_done trivial

end

theorem withPaths_fits {source : Query} {paths : List String} {start names : List String}
    (fits : source.Fits scope start names) : (withPaths source paths).Fits scope start names := by
  unfold withPaths
  induction paths generalizing source with
  | nil => exact fits
  | cons path rest ih =>
    exact ih ⟨by simpa using fits.wellScoped, by simpa [Query.binders] using fits.issues⟩

theorem includeClause_scoped (tree : Include) (type : ResourceType) :
    ClauseScoped fun source => compiler.includeClause source tree type := by
  intro scope start source before result after ended within fits
  obtain ⟨paths, between, arePaths, ended⟩ := outcome?_of_bind ended
  cases ended
  rw [(includePaths_looks tree type [] before paths _ arePaths).2]
  exact withPaths_fits fits

theorem filterClause_scoped (filter : Filter) (type : ResourceType) :
    ClauseScoped fun source => withVariable type.element fun v =>
      compiler.filterClause source filter v type := by
  refine lambdaClause_scoped .filter (fun current => compiler.predicate filter current type)
    (fun scope current reads => predicate_scoped filter scope current type reads) ?_ ?_
  · intro source lambda scope
    simp
  · intro source lambda
    simp [Query.binders]

/-! ## Sort keys -/

theorem sortValue_looks (target : Target) {current : Expr} {owner : ResourceType}
    (reads : current.Reads scope) :
    (compiler.sortValue target current owner).Looks fun value => value.Reads scope := by
  cases target with
  | field chain =>
    refine looks_bind (singleValue_looks reads) fun found isRead => ?_
    obtain ⟨value, resolved⟩ := found
    simp only
    split
    · exact looks_done isRead
    · exact looks_fail _ _
    · exact looks_fail _ _
  | count chain =>
    refine looks_bind (singleValue_looks reads) fun found isRead => ?_
    refine looks_bind (looks_ofExcept _) fun _ _ => looks_done ?_
    exact ⟨by simpa using isRead.wellScoped, by simpa using isRead.binders⟩

theorem orderByKeys_looks {v : Variable} {type : ResourceType} (isNew : v.name ∉ scope) :
    ∀ (keys : List SortKey) (query : Query), query.wellScoped scope = true →
      (compiler.orderByKeys v type keys true query).Looks fun result =>
        result.wellScoped scope = true ∧ ∀ below, result.bindersWith below =
          query.bindersWith (List.replicate keys.length v.name ++ below) := by
  intro keys
  induction keys with
  | nil =>
    intro query wellScoped
    exact looks_done ⟨wellScoped, fun below => rfl⟩
  | cons key rest ih =>
    intro query wellScoped
    rw [orderByKeys]
    refine looks_bind (sortValue_looks key.target (v.accessor_reads scope)) fun value reads => ?_
    have scopedKey := v.lambda_wellScoped isNew reads.wellScoped
    have ordered := ih (.orderBy query (v.lambda value) key.direction true)
      (by simp [wellScoped, scopedKey])
    intro before result after ended
    obtain ⟨⟨isScoped, joined⟩, same⟩ := ordered before result after ended
    refine ⟨⟨isScoped, fun below => ?_⟩, same⟩
    rw [joined, Query.bindersWith, if_pos rfl, Variable.lambda, Lambda.inner, reads.binders,
      List.append_nil, List.length_cons, List.replicate_succ, List.cons_append]

theorem sortClause_scoped (sorting : Sorting) (type : ResourceType) :
    ClauseScoped fun source => withVariable type.element fun v =>
      compiler.sortClause source sorting v type := by
  intro scope start source before result after ended within fits
  obtain ⟨v, between, inner, named, same, ended⟩ := outcome?_of_withVariable ended
  have isNew : v.name ∉ scope := fun inScope =>
    named.fresh_name.1 (fits.issues.kept (within inScope))
  unfold sortClause at ended
  cases keys : sorting.keys with
  | nil =>
    rw [keys, List.isEmpty_nil, if_pos rfl] at ended
    cases ended
  | cons key rest =>
    rw [keys, if_neg (by simp), orderByKeys] at ended
    obtain ⟨value, middle, isValue, ended⟩ := outcome?_of_bind ended
    obtain ⟨reads, unchanged⟩ :=
      sortValue_looks key.target (v.accessor_reads scope) _ _ _ isValue
    have scopedKey := v.lambda_wellScoped isNew reads.wellScoped
    obtain ⟨⟨isScoped, joined⟩, unchanged'⟩ := orderByKeys_looks isNew rest
      (.orderBy source (v.lambda value) key.direction false)
      (by simp [fits.wellScoped, scopedKey]) _ _ _ ended
    refine ⟨isScoped, ?_⟩
    have binders : result.binders =
        source.binders ++ [List.replicate (rest.length + 1) v.name] := by
      rw [Query.binders, joined, Query.bindersWith, if_neg (by simp), chainBinder, Variable.lambda,
        Lambda.inner, reads.binders, List.append_nil, List.append_nil, List.replicate_succ]
      rfl
    rw [binders, same, unchanged', unchanged]
    exact fits.issues.append (named.chain rest.length)

theorem pageClause_fits {source : Query} {start names : List String}
    (fits : source.Fits scope start names) (page : Page) :
    (pageClause source page).Fits scope start names := by
  have skipped : (if 0 < page.skip then Query.skip source page.skip else source).Fits scope start
      names := by
    split
    · exact ⟨by simpa using fits.wellScoped, by simpa [Query.binders] using fits.issues⟩
    · exact fits
  unfold pageClause
  cases page.take with
  | none => exact skipped
  | some count =>
    exact ⟨by simpa using skipped.wellScoped, by simpa [Query.binders] using skipped.issues⟩

/-! ## Projections -/

def BindingScoped (binding : Binding) : Prop :=
  ∀ scope current resolved, current.Reads scope → (binding.value current resolved).Fits scope

theorem plainBinding_scoped (name : String) : BindingScoped (plainBinding name) := by
  intro scope current resolved reads
  exact fits_done (resolved.access_reads reads)

theorem resolveBindings_looks (type : ResourceType) (bindings : List Binding) :
    (compiler.resolveBindings type bindings).Looks fun resolved =>
      ∀ pair ∈ resolved, pair.1 ∈ bindings := by
  induction bindings with
  | nil => exact looks_done fun pair member => by cases member
  | cons binding rest ih =>
    rw [resolveBindings]
    refine looks_bind (looks_ofExcept _) fun field _ => ?_
    refine looks_bind ih fun others found => looks_done ?_
    refine List.forall_mem_cons.mpr ⟨List.mem_cons_self, fun pair member => ?_⟩
    exact List.mem_cons_of_mem _ (found pair member)

structure BindingsFit (values : List (String × Expr)) (scope before after : List String) :
    Prop where
  wellScoped : Expr.bindingsWellScoped scope values = true
  issues : Issues before after (Expr.bindingsBinders values)

theorem boundValues_fit {current : Expr} (reads : current.Reads scope) :
    ∀ (pairs : List (Binding × ResolvedField)), (∀ pair ∈ pairs, BindingScoped pair.1) →
      ∀ (before : Context) (values : List (String × Expr)) (after : Context),
        (boundValues current pairs).outcome? before = some (values, after) →
        scope ⊆ before.names.issued →
        BindingsFit values scope before.names.issued after.names.issued := by
  intro pairs
  induction pairs with
  | nil =>
    intro _ before values after ended _
    cases ended
    exact ⟨rfl, .nil _⟩
  | cons pair rest ih =>
    intro each before values after ended within
    obtain ⟨here, later⟩ := List.forall_mem_cons.mp each
    obtain ⟨entry, between, isEntry, ended⟩ := outcome?_of_bind ended
    obtain ⟨value, _, isValue, isEntry⟩ := outcome?_of_bind isEntry
    obtain ⟨others, _, areOthers, ended⟩ := outcome?_of_bind ended
    cases isEntry
    cases ended
    have first := here scope current pair.2 reads before value between isValue within
    have rest := ih later between others _ areOthers (List.Subset.trans within first.issues.kept)
    refine ⟨?_, ?_⟩
    · simp [first.wellScoped, rest.wellScoped]
    · simpa using first.issues.append rest.issues

theorem record_scoped {bindings : List Binding}
    (each : ∀ binding ∈ bindings, BindingScoped binding) :
    Scoped (compiler.record bindings) := by
  intro scope current type reads
  have eachOfAll : ∀ binding ∈ compiler.withIdentity type bindings, BindingScoped binding :=
    forall_withIdentity each (plainBinding_scoped type.idField)
  refine fits_bind (resolveBindings_looks type _) fun resolved found => ?_
  intro before body after ended within
  obtain ⟨values, _, areValues, ended⟩ := outcome?_of_bind ended
  cases ended
  have fit := boundValues_fit reads _ (fun pair member =>
    eachOfAll pair.1 (found pair (List.mem_mergeSort.mp member))) before values _ areValues within
  exact ⟨by simpa using fit.wellScoped, by simpa using fit.issues⟩

/-! ## Nested layers -/

theorem nestedRecord_scoped {body : Expr → ResourceType → Compile Expr} (bodyScoped : Scoped body)
    {value : Expr} (reads : value.Reads scope) (target : ResourceType) (path : String) :
    (compiler.nestedRecord value target path body).Fits scope := by
  unfold nestedRecord
  refine fits_deeper fun before result after ended within => ?_
  obtain ⟨built, _, isBuilt, ended⟩ := outcome?_of_bind ended
  cases ended
  have fits := fits_mapError (bodyScoped scope value target reads) before built _ isBuilt within
  refine ⟨?_, ?_⟩
  · simp [Expr.null, reads.wellScoped, fits.wellScoped]
  · simpa [Expr.null, reads.binders] using fits.issues

theorem nestedRows_scoped {apply : Query → ResourceType → Compile Query}
    (applyScoped : ∀ type, ClauseScoped fun source => apply source type) {value : Expr}
    (reads : value.Reads scope) (target : ResourceType) (path : String) :
    (compiler.nestedRows value target path apply).Fits scope := by
  unfold nestedRows
  refine fits_deeper fun before result after ended within => ?_
  obtain ⟨query, _, isQuery, ended⟩ := outcome?_of_bind ended
  cases ended
  rw [outcome?_mapError] at isQuery
  have source : (Query.navigation value target.element).Fits scope before.names.issued
      before.names.issued := by
    refine ⟨by simpa using reads.wellScoped, ?_⟩
    simpa [Query.binders, reads.binders] using Issues.nil before.names.issued
  have fits := applyScoped target scope _ _ before query _ isQuery within source
  exact ⟨by simpa using fits.wellScoped, by simpa [Query.binders] using fits.issues⟩

def BodyScoped (body? : Option (Expr → ResourceType → Compile Expr)) : Prop :=
  ∀ body, body? = some body → Scoped body

theorem nestedValue_scoped {layer : Layer} {apply : Query → ResourceType → Compile Query}
    {body? : Option (Expr → ResourceType → Compile Expr)}
    (applyScoped : ∀ type, ClauseScoped fun source => apply source type)
    (bodyScoped : BodyScoped body?) {accessor : Expr} (reads : accessor.Reads scope)
    (resolved : ResolvedField) :
    (compiler.nestedValue layer apply body? accessor resolved).Fits scope := by
  have read := resolved.access_reads reads
  unfold nestedValue
  cases resolved.kind with
  | «attribute» _ _ => exact fits_fail _
  | toOne _ =>
    refine fits_bind (looks_ofExcept _) fun target _ => ?_
    split
    · exact fits_fail _
    · cases body? with
      | none => exact fits_done read
      | some body => exact nestedRecord_scoped (bodyScoped body rfl) read target _
  | toMany _ =>
    refine fits_bind (looks_ofExcept _) fun target _ => ?_
    exact nestedRows_scoped applyScoped read target _

/-! ## Layers -/

mutual

/-- A layer applied to a source keeps it well scoped and adds the binders of its clauses. -/
theorem applyLayer_scoped : ∀ (layer : Layer) (type : ResourceType),
    ClauseScoped fun source => compiler.applyLayer layer source type
  | ⟨name, tree, filter, sort, page, projection⟩, type => by
    intro scope start source before result after ended within fits
    have bodyScoped := projectionBody_scoped projection
    simp only [applyLayer] at ended
    split at ended
    · obtain ⟨included, _, isIncluded, ended⟩ := outcome?_of_bind ended
      obtain ⟨filtered, _, isFiltered, ended⟩ := outcome?_of_bind ended
      obtain ⟨ordered, _, isOrdered, ended⟩ := outcome?_of_bind ended
      obtain ⟨paged, _, isPaged, ended⟩ := outcome?_of_bind ended
      have fits := optionally_scoped (fun tree => includeClause_scoped tree type) tree
        scope start _ _ _ _ isIncluded within fits
      have fits := optionally_scoped (fun filter => filterClause_scoped filter type) filter
        scope start _ _ _ _ isFiltered within fits
      have fits := optionally_scoped (fun sorting => sortClause_scoped sorting type) sort
        scope start _ _ _ _ isOrdered within fits
      have pageScoped : ∀ page, ClauseScoped fun query => done (pageClause query page) := by
        intro page scope start source before result after ended _ fits
        cases ended
        exact pageClause_fits fits page
      have fits := optionally_scoped pageScoped page scope start _ _ _ _ isPaged within fits
      cases isBody : compiler.projectionBody projection with
      | none =>
        simp only [isBody] at ended
        cases ended
        exact fits
      | some body =>
        simp only [isBody] at ended
        refine lambdaClause_scoped .select (fun current => body current type)
          (fun scope current reads => bodyScoped body isBody scope current type reads) ?_ ?_
          scope start paged _ result after ended within fits
        · intro source lambda scope
          simp
        · intro source lambda
          simp [Query.binders]
    · cases ended

theorem layerBody_scoped : ∀ layer : Layer, BodyScoped (compiler.layerBody layer)
  | ⟨_, _, _, _, _, projection⟩ => by
    rw [layerBody]
    exact projectionBody_scoped projection

theorem projectionBody_scoped : ∀ projection : Option (List Selection),
    BodyScoped (compiler.projectionBody projection)
  | none => by
    rw [projectionBody]
    intro body isBody
    cases isBody
  | some selections => by
    rw [projectionBody]
    split
    · intro body isBody
      cases isBody
    · intro body isBody
      cases isBody
      exact record_scoped (bindings_scoped selections)

theorem bindings_scoped : ∀ selections : List Selection,
    ∀ binding ∈ compiler.bindings selections, BindingScoped binding
  | [] => by
    rw [bindings]
    intro binding member
    cases member
  | selection :: rest => by
    rw [bindings]
    exact List.forall_mem_cons.mpr ⟨binding_scoped selection, bindings_scoped rest⟩

theorem binding_scoped : ∀ selection : Selection, BindingScoped (compiler.binding selection)
  | .field name => by
    rw [binding]
    exact plainBinding_scoped name
  | .nested name layer => by
    rw [binding]
    intro scope current resolved reads
    exact nestedValue_scoped (applyLayer_scoped layer) (layerBody_scoped layer) reads resolved

end

end Compiler

end LayeredQuery
