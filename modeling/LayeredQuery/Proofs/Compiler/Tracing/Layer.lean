import LayeredQuery.Proofs.Compiler.Layer
import LayeredQuery.Proofs.Compiler.Tracing.Predicate

/-!
# Traced errors of layers

The clauses of a layer are compiled for its type, and their errors are traced from there. An include
tree takes the names above along as it goes down, while a nested layer is compiled for the target of
its relationship, and its errors are moved below the relationship when they come out.
-/

set_option autoImplicit false

namespace LayeredQuery

namespace Compiler

open Compile Schema

variable {compiler : Compiler} {owner : ResourceType}

/-- A clause fails with errors that are traced from the type it is applied for. -/
def ClauseTraces (compiler : Compiler) (owner : ResourceType) (clause : Query → Compile Query) :
    Prop :=
  ∀ source, (clause source).FailsOnly (compiler.schema.Traced owner)

theorem optionally_traces {α : Type} {clause : α → Query → Compile Query} {check : α → Bool}
    (each : ∀ value, check value = true → compiler.ClauseTraces owner (clause value))
    {value? : Option α} (checked : value?.all check = true) :
    compiler.ClauseTraces owner (optionally clause value?) := by
  cases value? with
  | none => exact fun _ => .done _
  | some value => exact each value checked

theorem optionally_done {α : Type} {kind : CompileError → Prop} {wrap : α → Query → Query}
    (value? : Option α) (source : Query) :
    (optionally (fun value query => .done (wrap value query)) value? source).FailsOnly kind := by
  cases value? <;> exact .done _

/-! ## Include trees -/

section Inclusion

variable {top : ResourceType} {above : List String} {name : String}

theorem includedTarget_traced (coherent : compiler.schema.Coherent)
    (topKnown : top ∈ compiler.schema.types) (segment : isSegment name = true)
    (leads : compiler.schema.follow? above top = some owner) :
    (compiler.includedTarget owner name (Text.joined "." (above ++ [name]))).FailsOnly
      (compiler.schema.Traced top) :=
  .lookup (fun _ refused => .of_resolve coherent topKnown segment leads refused) fun _ _ =>
    .ofExcept fun _ failed => .of_other (targetOf_other failed)

theorem follow?_of_includedTarget {path : String} {target : ResourceType}
    (leads : compiler.schema.follow? above top = some owner)
    (yielded : (compiler.includedTarget owner name path).Yields target) :
    compiler.schema.follow? (above ++ [name]) top = some target := by
  obtain ⟨resolved, isResolved, yielded⟩ := yields_bind yielded
  exact Schema.follow?_snoc leads (fieldOn?_of_resolve (yields_resolve isResolved))
    (targetOf?_of_targetOf (yields_ofExcept yielded)).1

mutual

theorem includePaths_traced (coherent : compiler.schema.Coherent)
    (topKnown : top ∈ compiler.schema.types) :
    ∀ (tree : Include) (type : ResourceType) (above : List String), tree.isTraceable = true →
      compiler.schema.follow? above top = some type →
      (compiler.includePaths type above tree).FailsOnly (compiler.schema.Traced top)
  | ⟨elements⟩, type, above, traceable, leads => by
    rw [Include.isTraceable] at traceable
    rw [includePaths]
    exact includeElements_traced coherent topKnown elements type above traceable leads

theorem includeElements_traced (coherent : compiler.schema.Coherent)
    (topKnown : top ∈ compiler.schema.types) :
    ∀ (elements : List (String × Include)) (type : ResourceType) (above : List String),
      Include.elementsTraceable elements = true → compiler.schema.follow? above top = some type →
      (compiler.includeElements type above elements).FailsOnly (compiler.schema.Traced top)
  | [], type, above, _, _ => by
    rw [includeElements]
    exact .done _
  | (name, below) :: rest, type, above, traceable, leads => by
    rw [Include.elementsTraceable, Bool.and_eq_true, Bool.and_eq_true] at traceable
    obtain ⟨⟨segment, inner⟩, others⟩ := traceable
    rw [includeElements]
    refine .bind (.deeper trivial ?_) fun _ _ =>
      (includeElements_traced coherent topKnown rest type above others leads).map
    refine (includedTarget_traced coherent topKnown segment leads).bind fun target yielded => ?_
    split
    · exact .done _
    · exact includePaths_traced coherent topKnown below target (above ++ [name]) inner
        (follow?_of_includedTarget leads yielded)

end

theorem includeClause_traces (coherent : compiler.schema.Coherent)
    (topKnown : top ∈ compiler.schema.types) (tree : Include)
    (traceable : tree.isTraceable = true) :
    compiler.ClauseTraces top fun source => compiler.includeClause source tree top :=
  fun _ => (includePaths_traced coherent topKnown tree top [] traceable rfl).map

end Inclusion

/-! ## Filters and sort keys -/

theorem filterClause_traces (coherent : compiler.schema.Coherent)
    (known : owner ∈ compiler.schema.types) (filter : Filter)
    (traceable : filter.isTraceable = true) :
    compiler.ClauseTraces owner fun source => withVariable owner.element fun v =>
      compiler.filterClause source filter v owner :=
  fun _ => .withVariable fun v =>
    (predicate_traces coherent filter traceable v.accessor owner known).map

theorem sortClause_traces (coherent : compiler.schema.Coherent)
    (known : owner ∈ compiler.schema.types) (sorting : Sorting)
    (traceable : sorting.isTraceable = true) :
    compiler.ClauseTraces owner fun source => withVariable owner.element fun v =>
      compiler.sortClause source sorting v owner := by
  refine fun source => .withVariable fun v => sortClause_failsOnly trivial fun key isKey => ?_
  have keyTraceable := List.all_eq_true.mp traceable key isKey
  exact sortValue_failsOnly (fun _ _ _ => trivial)
    (singleValue_traced coherent known keyTraceable .sortAcrossToMany v.accessor)
    fun _ _ _ _ => trivial

/-! ## Projections -/

structure BindingTraces (compiler : Compiler) (binding : Binding) : Prop where
  segment : isSegment binding.name = true
  traces : ∀ current resolved, ∀ owner ∈ compiler.schema.types,
    compiler.schema.fieldOn? owner binding.name = some resolved →
    (binding.value current resolved).FailsOnly (compiler.schema.Traced owner)

theorem plainBinding_traces {name : String} (segment : isSegment name = true) :
    compiler.BindingTraces (plainBinding name) :=
  ⟨segment, fun _ _ _ _ _ => .done _⟩

theorem resolveBindings_traced (coherent : compiler.schema.Coherent)
    (known : owner ∈ compiler.schema.types) {bindings : List Binding}
    (each : ∀ binding ∈ bindings, compiler.BindingTraces binding) :
    (compiler.resolveBindings owner bindings).FailsOnly (compiler.schema.Traced owner) := by
  induction bindings with
  | nil => exact .done _
  | cons binding rest ih =>
    obtain ⟨here, later⟩ := List.forall_mem_cons.mp each
    rw [resolveBindings]
    refine .lookup (fun error refused => ?_) fun _ _ => (ih later).map
    have here' : compiler.schema.follow? [] owner = some owner := rfl
    refine .of_resolve coherent known here.segment here' ?_
    rw [List.nil_append, Text.joined_singleton]
    exact refused

theorem resolveBindings_yields {bindings : List Binding} :
    ∀ {pairs : List (Binding × ResolvedField)},
      (compiler.resolveBindings owner bindings).Yields pairs →
      ∀ pair ∈ pairs, pair.1 ∈ bindings ∧
        compiler.schema.fieldOn? owner pair.1.name = some pair.2 := by
  induction bindings with
  | nil =>
    intro pairs yielded pair member
    rw [← yields_done yielded] at member
    cases member
  | cons binding rest ih =>
    intro pairs yielded
    obtain ⟨field, isField, yielded⟩ := yields_bind yielded
    obtain ⟨others, areOthers, yielded⟩ := yields_bind yielded
    rw [← yields_done yielded]
    refine List.forall_mem_cons.mpr
      ⟨⟨List.mem_cons_self, fieldOn?_of_resolve (yields_resolve isField)⟩, fun pair member => ?_⟩
    obtain ⟨isBinding, found⟩ := ih areOthers pair member
    exact ⟨List.mem_cons_of_mem _ isBinding, found⟩

theorem record_traces (coherent : compiler.schema.Coherent)
    (identities : compiler.schema.IdentitiesPublic)
    {bindings : List Binding} (each : ∀ binding ∈ bindings, compiler.BindingTraces binding) :
    compiler.Traces (compiler.record bindings) := by
  intro current owner known
  have identity : compiler.BindingTraces (plainBinding owner.idField) :=
    plainBinding_traces (isSegment_of_isPublicName (identities owner known))
  have eachOfAll := compiler.forall_withIdentity each identity
  refine .bind (resolveBindings_traced coherent known eachOfAll) fun pairs yielded => .map ?_
  refine .traverse fun pair member => .map ?_
  obtain ⟨isBinding, found⟩ := resolveBindings_yields yielded pair (List.mem_mergeSort.mp member)
  exact (eachOfAll pair.1 isBinding).traces current pair.2 owner known found

/-! ## Nested layers -/

theorem nestedTarget_other {resolved : ResolvedField} {layerType path : String}
    {error : CompileError} (failed : compiler.nestedTarget resolved layerType path = .error error) :
    error.isUnknownField = false := by
  unfold nestedTarget at failed
  split at failed
  · rename_i missing
    cases failed
    exact targetOf_other missing
  · split at failed <;> cases failed
    rfl

section Nested

variable {target : ResourceType} {name : String}

theorem within_traced {α : Type} {computation : Compile α}
    (traced : computation.FailsOnly (compiler.schema.Traced target))
    (leads : compiler.schema.follow? [name] owner = some target) :
    (Compile.mapError (.within name) computation).FailsOnly (compiler.schema.Traced owner) := by
  refine .mapError (traced.weaken fun error traced => ?_)
  have moved := traced.within (List.cons_ne_nil _ _) leads
  rw [Text.joined_singleton] at moved
  exact moved

theorem nested_traced {resolved : ResolvedField} {layerType : String}
    (found : compiler.schema.fieldOn? owner name = some resolved)
    {next : ResourceType → Compile Expr}
    (continued : ∀ target ∈ compiler.schema.types,
      compiler.schema.follow? [name] owner = some target →
      (next target).FailsOnly (compiler.schema.Traced owner)) :
    (Compile.ofExcept (compiler.nestedTarget resolved layerType name) >>= next).FailsOnly
      (compiler.schema.Traced owner) := by
  refine .lookup (fun _ failed => .of_other (nestedTarget_other failed)) fun target isTarget => ?_
  obtain ⟨isTarget, targetKnown, _⟩ := targetOf?_of_targetOf (nestedTarget_found isTarget)
  exact continued target targetKnown (follow?_cons found isTarget [])

theorem nestedRecord_traced {body : Expr → ResourceType → Compile Expr}
    (bodyTraces : compiler.Traces body) (targetKnown : target ∈ compiler.schema.types)
    (leads : compiler.schema.follow? [name] owner = some target) (value : Expr) :
    (compiler.nestedRecord value target name body).FailsOnly (compiler.schema.Traced owner) :=
  .deeper trivial (within_traced (bodyTraces value target targetKnown) leads).map

theorem nestedRows_traced {apply : Query → ResourceType → Compile Query}
    (applyTraces : compiler.ClauseTraces target fun source => apply source target)
    (leads : compiler.schema.follow? [name] owner = some target) (value : Expr) :
    (compiler.nestedRows value target name apply).FailsOnly (compiler.schema.Traced owner) :=
  .deeper trivial (within_traced (applyTraces _) leads).map

theorem nestedValue_traces (coherent : compiler.schema.Coherent) {layer : Layer}
    (segment : isSegment name = true) {apply : Query → ResourceType → Compile Query}
    {body? : Option (Expr → ResourceType → Compile Expr)}
    (applyTraces : ∀ type ∈ compiler.schema.types,
      compiler.ClauseTraces type fun source => apply source type)
    (bodyTraces : ∀ body, body? = some body → compiler.Traces body) :
    compiler.BindingTraces ⟨name, compiler.nestedValue layer apply body?⟩ := by
  refine ⟨segment, fun current resolved owner known found => ?_⟩
  have named : resolved.field.name = name := coherent.name_of_fieldOn? known found
  simp only [nestedValue, named]
  cases resolved.kind with
  | «attribute» _ _ => exact .fail trivial
  | toOne _ =>
    refine nested_traced found fun target targetKnown leads => ?_
    split
    · exact .fail trivial
    · cases body? with
      | none => exact .done _
      | some body => exact nestedRecord_traced (bodyTraces body rfl) targetKnown leads _
  | toMany _ =>
    exact nested_traced found fun target targetKnown leads =>
      nestedRows_traced (applyTraces target targetKnown) leads _

end Nested

/-! ## Layers -/

mutual

/-- An error of a layer is traced from the type it is applied for. -/
theorem applyLayer_traces (coherent : compiler.schema.Coherent)
    (identities : compiler.schema.IdentitiesPublic) :
    ∀ layer : Layer, layer.isTraceable = true → ∀ type ∈ compiler.schema.types,
      compiler.ClauseTraces type fun source => compiler.applyLayer layer source type
  | ⟨name, tree, filter, sort, page, projection⟩, traceable, type, known, source => by
    simp only [Layer.isTraceable, Bool.and_eq_true] at traceable
    obtain ⟨⟨⟨treeTraceable, filterTraceable⟩, sortTraceable⟩, projected⟩ := traceable
    have bodyTraces := projectionBody_traces coherent identities projection projected
    simp only [applyLayer]
    split
    · refine .bind (optionally_traces (includeClause_traces coherent known) treeTraceable source)
        fun included _ => ?_
      refine .bind (optionally_traces (filterClause_traces coherent known) filterTraceable included)
        fun filtered _ => ?_
      refine .bind (optionally_traces (sortClause_traces coherent known) sortTraceable filtered)
        fun sorted _ => ?_
      refine .bind (optionally_done page sorted) fun paged _ => ?_
      cases isBody : compiler.projectionBody projection with
      | none => exact .done _
      | some body => exact .withVariable fun v => (bodyTraces body isBody v.accessor type known).map
    · exact .fail trivial

theorem layerBody_traces (coherent : compiler.schema.Coherent)
    (identities : compiler.schema.IdentitiesPublic) :
    ∀ layer : Layer, layer.isTraceable = true →
      ∀ body, compiler.layerBody layer = some body → compiler.Traces body
  | ⟨_, _, _, _, _, projection⟩, traceable, body, isBody => by
    rw [Layer.isTraceable, Bool.and_eq_true] at traceable
    rw [layerBody] at isBody
    exact projectionBody_traces coherent identities projection traceable.2 body isBody

theorem projectionBody_traces (coherent : compiler.schema.Coherent)
    (identities : compiler.schema.IdentitiesPublic) :
    ∀ projection : Option (List Selection), Layer.projectionTraceable projection = true →
      ∀ body, compiler.projectionBody projection = some body → compiler.Traces body
  | none, _, body, isBody => by
    rw [projectionBody] at isBody
    cases isBody
  | some selections, traceable, body, isBody => by
    rw [Layer.projectionTraceable] at traceable
    rw [projectionBody] at isBody
    split at isBody
    · cases isBody
    · cases isBody
      exact record_traces coherent identities
        (bindings_trace coherent identities selections traceable)

theorem bindings_trace (coherent : compiler.schema.Coherent)
    (identities : compiler.schema.IdentitiesPublic) :
    ∀ selections : List Selection, Layer.selectionsTraceable selections = true →
      ∀ binding ∈ compiler.bindings selections, compiler.BindingTraces binding
  | [], _ => by
    rw [bindings]
    intro binding member
    cases member
  | selection :: rest, traceable => by
    rw [Layer.selectionsTraceable, Bool.and_eq_true] at traceable
    rw [bindings]
    exact List.forall_mem_cons.mpr
      ⟨binding_traces coherent identities selection traceable.1,
        bindings_trace coherent identities rest traceable.2⟩

theorem binding_traces (coherent : compiler.schema.Coherent)
    (identities : compiler.schema.IdentitiesPublic) :
    ∀ selection : Selection, Layer.selectionTraceable selection = true →
      compiler.BindingTraces (compiler.binding selection)
  | .field name, traceable => by
    rw [Layer.selectionTraceable] at traceable
    rw [binding]
    exact plainBinding_traces traceable
  | .nested name layer, traceable => by
    rw [Layer.selectionTraceable, Bool.and_eq_true] at traceable
    rw [binding]
    exact nestedValue_traces coherent traceable.1
      (applyLayer_traces coherent identities layer traceable.2)
      (layerBody_traces coherent identities layer traceable.2)

end

theorem compileIn_traced (coherent : compiler.schema.Coherent)
    (identities : compiler.schema.IdentitiesPublic)
    {layer : Layer} (traceable : layer.isTraceable = true) :
    (compiler.compileIn layer).FailsOnly fun error => error.isUnknownField = false ∨
      ∃ top, compiler.schema.type? layer.type = some top ∧ compiler.schema.Traced top error := by
  refine .lookup (fun _ failed => .inl (type_other failed)) fun top isTop => ?_
  have known := type?_of_type isTop
  refine (applyLayer_traces coherent identities layer traceable top (mem_of_type? known) _).weaken
    fun error traced => .inr ⟨top, known, traced⟩

end Compiler

end LayeredQuery
