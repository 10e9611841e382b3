import LayeredQuery.Proofs.Compiler.Clauses
import LayeredQuery.Proofs.Json.Entries

/-!
# What layers compile to

A compiled projection evaluates, for every resource, to the object that the projection means, and a
compiled layer over a source of resources is answered with what the layer means for them. The two
hold together: objects hold the answers of nested layers, and answers are made of objects. Where a
sort fails on the way there is no object and no answer, and no other error than that of the sort.
-/

set_option autoImplicit false

namespace LayeredQuery

theorem Layer.projection_of_selections? {layer : Layer} {selections : List Selection}
    (projected : layer.selections? = some selections) :
    layer.projection = some selections ∧ selections ≠ [] := by
  unfold Layer.selections? at projected
  split at projected
  · cases projected
  · cases projected
  · rename_i isProjection
    cases projected
    exact ⟨isProjection, List.cons_ne_nil _ _⟩

namespace Compiler

variable {compiler : Compiler} {evaluator : Evaluator} {test : AttributeTest}

/-! ## The order of bindings -/

theorem bindsBefore_total (idField x y : String) :
    (bindsBefore idField x y || bindsBefore idField y x) = true := by
  unfold bindsBefore
  by_cases first : x = idField
  · simp [first]
  · by_cases second : y = idField
    · simp [second]
    · simpa [first, second] using String.le_total x y

theorem bindsBefore_trans (idField x y z : String) (xy : bindsBefore idField x y = true)
    (yz : bindsBefore idField y z = true) : bindsBefore idField x z = true := by
  unfold bindsBefore at xy yz ⊢
  by_cases first : x = idField
  · simp [first]
  · by_cases second : y = idField
    · simp [first, second] at xy
    · by_cases third : z = idField
      · simp [second, third] at yz
      · simp only [first, second, third, if_false, decide_eq_true_eq] at xy yz ⊢
        exact String.le_trans xy yz

theorem bindsBefore_antisymm {idField x y : String} (xy : bindsBefore idField x y = true)
    (yx : bindsBefore idField y x = true) : x = y := by
  unfold bindsBefore at xy yx
  by_cases first : x = idField
  · by_cases second : y = idField
    · exact first.trans second.symm
    · simp [first, second] at yx
  · by_cases second : y = idField
    · simp [first, second] at xy
    · simp only [first, second, if_false, decide_eq_true_eq] at xy yx
      exact String.le_antisymm xy yx

/-! ## Bindings -/

/-- What is compiled for an element of a type evaluates to what is made of every resource of that
type that the element stands for, unless that fails. -/
def Makes (compiler : Compiler) (evaluator : Evaluator) (test : AttributeTest)
    (compile : Expr → ResourceType → Compile Expr) (object : ResourceType → Json → Option Json) :
    Prop :=
  ∀ current owner body env value,
    (compile current owner).Yields body → owner ∈ compiler.schema.types →
    evaluator.eval current env = .ok value → compiler.schema.Resource test owner.name value →
    evaluator.eval body env = unlessDisordered (object owner value)

/-- What a binding makes of its resolved field evaluates to a value that goes by the resource. -/
def BindingMakes (compiler : Compiler) (evaluator : Evaluator) (test : AttributeTest)
    (binding : Binding) (meaning : ResourceType → Json → Option Json) : Prop :=
  ∀ resolved current owner body env row,
    (binding.value current resolved).Yields body → owner ∈ compiler.schema.types →
    compiler.schema.fieldOn? owner binding.name = some resolved →
    evaluator.eval current env = .ok row → compiler.schema.Resource test owner.name row →
    evaluator.eval body env = unlessDisordered (meaning owner row)

theorem plainBinding_makes (faithful : evaluator.Faithful compiler test) (name : String) :
    compiler.BindingMakes evaluator test (plainBinding name)
      fun owner row => some (compiler.schema.fieldValue owner name row) := by
  intro resolved current owner body env row yielded known found evaluated resource
  have isBody := Compile.yields_done yielded
  subst isBody
  have found : compiler.schema.fieldOn? owner name = some resolved := found
  simp only [Schema.fieldValue, found]
  exact faithful.eval_access known found evaluated resource

theorem binding_name (selection : Selection) :
    (compiler.binding selection).name = selection.name := by
  cases selection <;> rw [binding] <;> rfl

theorem bindings_eq_map (selections : List Selection) :
    compiler.bindings selections = selections.map compiler.binding := by
  induction selections with
  | nil => rw [bindings]; rfl
  | cons selection rest ih => rw [bindings, ih, List.map_cons]

theorem names_bindings (selections : List Selection) :
    (compiler.bindings selections).map Binding.name = selections.map Selection.name := by
  rw [bindings_eq_map, List.map_map]
  exact List.map_congr_left fun selection _ => binding_name selection

/-- The selections of a projection, with one for the identity where it comes along. -/
def allSelections (settings : Settings) (type : ResourceType) (selections : List Selection) :
    List Selection :=
  if settings.alwaysIncludeIdentity
      && !selections.any fun selection => selection.name = type.idField then
    selections ++ [.field type.idField]
  else selections

theorem withIdentity_bindings (type : ResourceType) (selections : List Selection) :
    compiler.withIdentity type (compiler.bindings selections) =
      (allSelections compiler.settings type selections).map compiler.binding := by
  have present : (compiler.bindings selections).any (fun binding => binding.name = type.idField) =
      selections.any fun selection => selection.name = type.idField := by
    rw [bindings_eq_map, List.any_map]
    exact congrArg (selections.any ·) (funext fun selection => by simp [binding_name])
  unfold withIdentity allSelections
  rw [present]
  split
  · rw [bindings_eq_map, List.map_append, List.map_singleton, binding]
  · exact bindings_eq_map selections

theorem entries_eq_mapM (schema : Schema) (sorter : Sorter KeyedRow) (settings : Settings)
    (selections : List Selection) (type : ResourceType) (row : Json) :
    ((schema.selectedEntries? sorter settings selections type row).map
        (· ++ schema.identityEntries settings selections type row)) =
      (allSelections settings type selections).mapM fun selection =>
        (schema.selected? sorter settings selection type row).map (selection.name, ·) := by
  unfold Schema.identityEntries allSelections
  rw [Schema.selectedEntries?_eq_mapM]
  split
  · rw [List.mapM_append]
    cases selections.mapM fun selection =>
      (schema.selected? sorter settings selection type row).map (selection.name, ·) with
    | none => rfl
    | some entries => simp [Schema.selected?, Selection.name]
  · simp only [List.append_nil, Option.map_id']

theorem mapM_mergeSort {α : Type} (before : String → String → Bool) (name : α → String)
    (value : α → Option Json) (items : List α) :
    (items.mergeSort fun x y => before (name x) (name y)).mapM
        (fun item => (value item).map (name item, ·)) =
      (items.mapM fun item => (value item).map (name item, ·)).map
        fun entries => entries.mergeSort fun x y => before x.1 y.1 := by
  by_cases each : ∀ item ∈ items, (value item).isSome = true
  · have found : ∀ item ∈ items, (value item).map (name item, ·) =
        some (name item, (value item).getD .null) := by
      intro item member
      obtain ⟨found, isFound⟩ := Option.isSome_iff_exists.mp (each item member)
      rw [isFound]
      rfl
    have all : ∀ others : List α, (∀ item ∈ others, item ∈ items) →
        others.mapM (fun item => (value item).map (name item, ·)) =
          some (others.map fun item => (name item, (value item).getD .null)) := fun others among =>
      mapM_eq_some_iff.mpr (List.forall₂_map_right_iff.mpr
        (List.forall₂_same.mpr fun item member => found item (among item member)))
    rw [all _ fun item => List.mem_mergeSort.mp, all items fun item => id, Option.map_some]
    exact congrArg some (List.map_mergeSort fun _ _ _ _ => rfl)
  · have missing : ∀ others : List α, others.Perm items →
        others.mapM (fun item => (value item).map (name item, ·)) = none := by
      intro others perm
      rw [← Option.not_isSome_iff_eq_none, isSome_mapM_iff]
      exact fun all => each fun item member => by simpa using all item (perm.symm.subset member)
    rw [missing _ (List.mergeSort_perm _ _), missing _ (.refl _)]
    rfl

theorem resolveBindings_found {type : ResourceType} {selections : List Selection} :
    ∀ {resolved : List (Binding × ResolvedField)},
      (compiler.resolveBindings type (selections.map compiler.binding)).Yields resolved →
      ∃ pairs : List (Selection × ResolvedField),
        pairs.map Prod.fst = selections ∧
        resolved = pairs.map (fun pair => (compiler.binding pair.1, pair.2)) ∧
        ∀ pair ∈ pairs, compiler.schema.fieldOn? type pair.1.name = some pair.2 := by
  induction selections with
  | nil =>
    intro resolved yielded
    have isNil := Compile.yields_done yielded
    subst isNil
    exact ⟨[], rfl, rfl, fun pair member => by cases member⟩
  | cons selection rest ih =>
    intro resolved yielded
    obtain ⟨field, isField, yielded⟩ := Compile.yields_bind yielded
    obtain ⟨others, areOthers, yielded⟩ := Compile.yields_bind yielded
    have isResolved := Compile.yields_done yielded
    subst isResolved
    obtain ⟨pairs, firsts, rfl, found⟩ := ih areOthers
    have here := Schema.fieldOn?_of_resolve (yields_resolve isField)
    rw [binding_name] at here
    exact ⟨(selection, field) :: pairs, by rw [List.map_cons, firsts], rfl,
      List.forall_mem_cons.mpr ⟨here, found⟩⟩

theorem evalBindings_eq (meaning : Selection → ResourceType → Json → Option Json)
    {type : ResourceType} {current : Expr} {env : Env} {row : Json}
    (known : type ∈ compiler.schema.types) (evaluated : evaluator.eval current env = .ok row)
    (resource : compiler.schema.Resource test type.name row) :
    ∀ {pairs : List (Selection × ResolvedField)} {values : List (String × Expr)},
      (∀ pair ∈ pairs, compiler.schema.fieldOn? type pair.1.name = some pair.2 ∧
        compiler.BindingMakes evaluator test (compiler.binding pair.1) (meaning pair.1)) →
      (boundValues current (pairs.map fun pair => (compiler.binding pair.1, pair.2))).Yields
        values →
      evaluator.evalBindings values env = unlessDisordered
        (pairs.mapM fun pair => (meaning pair.1 type row).map (pair.1.name, ·)) := by
  intro pairs
  induction pairs with
  | nil =>
    intro values _ yielded
    have isNil := Compile.yields_done yielded
    subst isNil
    rw [Evaluator.evalBindings]
    rfl
  | cons pair rest ih =>
    intro values each yielded
    obtain ⟨⟨found, makes⟩, later⟩ := List.forall_mem_cons.mp each
    obtain ⟨entry, isEntry, yielded⟩ := Compile.yields_bind yielded
    obtain ⟨value, isValue, isEntry⟩ := Compile.yields_bind isEntry
    have isEntry := Compile.yields_done isEntry
    obtain ⟨others, areOthers, yielded⟩ := Compile.yields_bind yielded
    have isValues := Compile.yields_done yielded
    subst isEntry isValues
    have here := makes _ _ _ _ _ _ isValue known (binding_name pair.1 ▸ found) evaluated resource
    rw [Evaluator.evalBindings, here, ih later areOthers, binding_name, List.mapM_cons]
    cases meaning pair.1 type row with
    | none => rfl
    | some value => cases rest.mapM fun pair =>
        (meaning pair.1 type row).map (pair.1.name, ·) <;> rfl

/-- A compiled projection evaluates to the object of its selections, whatever order they are bound
in. -/
theorem record_makes {selections : List Selection} (faithful : evaluator.Faithful compiler test)
    (each : ∀ selection ∈ selections, compiler.BindingMakes evaluator test
      (compiler.binding selection)
      (compiler.schema.selected? evaluator.sorter compiler.settings selection)) :
    compiler.Makes evaluator test (compiler.record (compiler.bindings selections))
      (compiler.schema.object? evaluator.sorter compiler.settings selections) := by
  intro current type body env row yielded known evaluated resource
  let meaning := compiler.schema.selected? evaluator.sorter compiler.settings
  have eachOfAll : ∀ selection ∈ allSelections compiler.settings type selections,
      compiler.BindingMakes evaluator test (compiler.binding selection) (meaning selection) := by
    intro selection member
    unfold allSelections at member
    split at member
    · rcases List.mem_append.mp member with selected | identity
      · exact each selection selected
      · rw [List.mem_singleton.mp identity, binding]
        simp only [meaning, Schema.selected?]
        exact plainBinding_makes faithful type.idField
    · exact each selection member
  obtain ⟨resolved, isResolved, yielded⟩ := Compile.yields_bind yielded
  rw [withIdentity_bindings] at isResolved
  obtain ⟨pairs, firsts, rfl, found⟩ := resolveBindings_found isResolved
  obtain ⟨values, areValues, yielded⟩ := Compile.yields_bind yielded
  have isBody := Compile.yields_done yielded
  subst isBody
  -- The pairs are sorted by the names of their selections, before and after they are evaluated.
  let before : Selection × ResolvedField → Selection × ResolvedField → Bool :=
    fun x y => bindsBefore type.idField x.1.name y.1.name
  have sortedPairs : (pairs.map fun pair => (compiler.binding pair.1, pair.2)).mergeSort
      (fun x y => bindsBefore type.idField x.1.name y.1.name) =
      (pairs.mergeSort before).map fun pair => (compiler.binding pair.1, pair.2) := by
    refine (List.map_mergeSort fun x _ y _ => ?_).symm
    simp only [before, binding_name]
  rw [sortedPairs] at areValues
  have entries := evalBindings_eq meaning known evaluated
    resource (fun pair member => by
      have isPair := List.mem_mergeSort.mp member
      refine ⟨found pair isPair, eachOfAll pair.1 ?_⟩
      rw [← firsts]
      exact List.mem_map_of_mem isPair) areValues
  have inOrder := mapM_mergeSort (bindsBefore type.idField)
    (fun pair : Selection × ResolvedField => pair.1.name)
    (fun pair => meaning pair.1 type row) pairs
  have unsorted : (pairs.mapM fun pair => (meaning pair.1 type row).map (pair.1.name, ·)) =
      (compiler.schema.selectedEntries? evaluator.sorter compiler.settings selections type row).map
        (· ++ compiler.schema.identityEntries compiler.settings selections type row) := by
    rw [entries_eq_mapM, ← firsts, List.mapM_map]
    rfl
  rw [Evaluator.eval, entries, inOrder, unsorted, Schema.object?]
  cases compiler.schema.selectedEntries? evaluator.sorter compiler.settings selections type row with
  | none => rfl
  | some found =>
    simp only [Option.map_some, unlessDisordered, ok_bind]
    rw [Json.ofEntries_mergeSort (bindsBefore_trans type.idField) (bindsBefore_total type.idField)]

/-! ## Nested layers -/

theorem nestedTarget_found {resolved : ResolvedField} {layerType path : String}
    {target : ResourceType}
    (found : compiler.nestedTarget resolved layerType path = .ok target) :
    compiler.targetOf resolved path = .ok target := by
  unfold nestedTarget at found
  cases isTarget : compiler.targetOf resolved path with
  | error _ => simp [isTarget] at found
  | ok other =>
    simp only [isTarget] at found
    split at found
    · exact found
    · cases found

/-- Clauses applied to a source of resources are answered with what they mean for the resources. -/
def ClausesAnswer (compiler : Compiler) (evaluator : Evaluator) (test : AttributeTest)
    (apply : Query → ResourceType → Compile Query)
    (answer : ResourceType → List Json → Option (List Json)) : Prop :=
  ∀ source type query env rows,
    (apply source type).Yields query → type ∈ compiler.schema.types →
    Stage compiler evaluator test env type [] source (some rows) →
    (evaluator.runWith query [] env >>= query.answer compiler.schema) =
      unlessDisordered (answer type rows)

/-- A projection that may be absent, and what it makes, which is absent with it. -/
def MakesObject (compiler : Compiler) (evaluator : Evaluator) (test : AttributeTest) :
    Option (Expr → ResourceType → Compile Expr) →
      Option (ResourceType → Json → Option Json) → Prop
  | none, none => True
  | some body, some object => compiler.Makes evaluator test body object
  | _, _ => False

theorem nestedRecord_eval (faithful : evaluator.Faithful compiler test)
    {inner : Expr → ResourceType → Compile Expr} {object : ResourceType → Json → Option Json}
    (makes : compiler.Makes evaluator test inner object) {value body : Expr}
    {target : ResourceType} {path : String} {env : Env} {found : Json}
    (yielded : (compiler.nestedRecord value target path inner).Yields body)
    (known : target ∈ compiler.schema.types) (evaluated : evaluator.eval value env = .ok found)
    (resource : compiler.schema.Resource test target.name found) :
    evaluator.eval body env =
      unlessDisordered (if found.isNull then some .null else object target found) := by
  obtain ⟨built, isBuilt, yielded⟩ := Compile.yields_bind (yields_deeper yielded)
  have isBody := Compile.yields_done yielded
  subst isBody
  have nullEvaluated : evaluator.eval .null env = .ok .null := Evaluator.eval_constant .null
  have compared := Evaluator.eval_compare evaluated nullEvaluated
    (faithful.decidesNull .equal found)
  have isNull : Relation.equal.holds found .null = found.isNull := by cases found <;> rfl
  rw [isNull] at compared
  rw [Evaluator.eval, compared, ok_bind, truth, ok_bind]
  cases found.isNull with
  | true => exact nullEvaluated
  | false =>
    exact makes _ _ _ _ _ (Compile.yields_mapError isBuilt) known evaluated resource

theorem nestedRows_eval (faithful : evaluator.Faithful compiler test)
    {apply : Query → ResourceType → Compile Query}
    {answer : ResourceType → List Json → Option (List Json)}
    (answers : compiler.ClausesAnswer evaluator test apply answer) {value body : Expr}
    {target : ResourceType} {path : String} {env : Env} {found : Json}
    (yielded : (compiler.nestedRows value target path apply).Yields body)
    (known : target ∈ compiler.schema.types) (evaluated : evaluator.eval value env = .ok found)
    (readable : found = .null ∨ ∃ items, found = .array items)
    (each : ∀ item ∈ found.related, compiler.schema.Resource test target.name item) :
    evaluator.eval body env = unlessDisordered ((answer target found.related).map .array) := by
  obtain ⟨query, isQuery, yielded⟩ := Compile.yields_bind (yields_deeper yielded)
  have isBody := Compile.yields_done yielded
  subst isBody
  have source : Stage compiler evaluator test env target [] (.navigation value target.element)
      (some found.related) := by
    refine ⟨?_, ?_, rfl, rfl, fun rows same => by cases same; exact each⟩
    · rw [Evaluator.runWith, evaluated, ok_bind, sequence_eq readable]
      rfl
    · simp only [Query.rootType, faithful.coherent.typeOfElement?_of_mem known]
  have answered := answers _ _ _ _ _ (Compile.yields_mapError isQuery) known source
  rw [Evaluator.eval, faithful.sameSchema, ← bind_assoc, answered]
  cases answer target found.related <;> rfl

theorem nestedValue_makes (faithful : evaluator.Faithful compiler test) {name : String}
    {layer : Layer} {apply : Query → ResourceType → Compile Query}
    {answer : ResourceType → List Json → Option (List Json)}
    {body? : Option (Expr → ResourceType → Compile Expr)}
    {object? : Option (ResourceType → Json → Option Json)}
    (answers : compiler.ClausesAnswer evaluator test apply answer)
    (objects : compiler.MakesObject evaluator test body? object?) :
    compiler.BindingMakes evaluator test
      ⟨name, fun accessor resolved => compiler.nestedValue layer apply body? accessor resolved⟩
      (compiler.schema.relatedValue? object? answer · name) := by
  intro resolved current owner body env row yielded known found evaluated resource
  have found : compiler.schema.fieldOn? owner name = some resolved := found
  obtain ⟨read, held⟩ := faithful.eval_access_holds known found evaluated resource
  simp only [nestedValue] at yielded
  cases kind : resolved.kind with
  | «attribute» _ _ =>
    simp only [kind] at yielded
    exact absurd yielded Compile.not_yields_fail
  | toOne targetName =>
    simp only [kind] at yielded
    obtain ⟨target, isTarget, yielded⟩ := Compile.yields_bind yielded
    obtain ⟨targetFound, targetKnown, related⟩ :=
      target_of_toOne kind (nestedTarget_found (Compile.yields_ofExcept isTarget)) held
    simp only [Schema.relatedValue?, found, targetFound, kind, FieldKind.isToMany]
    split at yielded
    · exact absurd yielded Compile.not_yields_fail
    · cases body? with
      | none =>
        cases object? with
        | none =>
          have isBody := Compile.yields_done yielded
          subst isBody
          exact read
        | some _ => exact objects.elim
      | some inner =>
        cases object? with
        | none => exact objects.elim
        | some object =>
          exact nestedRecord_eval faithful objects yielded targetKnown read related
  | toMany targetName =>
    simp only [kind] at yielded
    obtain ⟨target, isTarget, yielded⟩ := Compile.yields_bind yielded
    obtain ⟨targetFound, targetKnown, readable, each⟩ :=
      target_of_toMany kind (nestedTarget_found (Compile.yields_ofExcept isTarget)) held
    simp only [Schema.relatedValue?, found, targetFound, kind, FieldKind.isToMany, if_true]
    exact nestedRows_eval faithful answers yielded targetKnown read readable each

/-! ## Layers -/

/-- The clauses of a layer before its projection make one query of another. -/
def Prepares (compiler : Compiler) (layer : Layer) (type : ResourceType) (source paged : Query) :
    Prop :=
  ∃ included filtered ordered,
    (optionally (fun tree query => compiler.includeClause query tree type)
      layer.tree source).Yields included ∧
    (optionally (fun filter query =>
      .withVariable type.element fun v => compiler.filterClause query filter v type)
      layer.filter included).Yields filtered ∧
    (optionally (fun sorting query =>
      .withVariable type.element fun v => compiler.sortClause query sorting v type)
      layer.sort filtered).Yields ordered ∧
    (optionally (fun page query => .done (pageClause query page)) layer.page ordered).Yields paged

theorem yields_optionally {α : Type} {clause : α → Query → Compile Query} {value? : Option α}
    {query result : Query} (yielded : (optionally clause value? query).Yields result) :
    (value? = none ∧ query = result) ∨
      ∃ value, value? = some value ∧ (clause value query).Yields result := by
  cases value? with
  | none => exact .inl ⟨rfl, Compile.yields_done yielded⟩
  | some value => exact .inr ⟨value, rfl, yielded⟩

theorem projectionBody_some {selections : List Selection} (nonempty : selections ≠ []) :
    compiler.projectionBody (some selections) =
      some fun accessor type =>
        compiler.record (compiler.bindings selections) accessor type := by
  rw [projectionBody, if_neg (by simpa using nonempty)]

/-- A compiled layer is the query that its clauses prepare, or that query under its projection. -/
theorem applyLayer_cases {layer : Layer} {source query : Query} {type : ResourceType}
    (yielded : (compiler.applyLayer layer source type).Yields query) :
    ∃ paged, compiler.Prepares layer type source paged ∧
      ((compiler.projectionBody layer.projection = none ∧ query = paged) ∨
        ∃ body built, ∃ v : Variable, compiler.projectionBody layer.projection = some body ∧
          (body v.accessor type).Yields built ∧ query = .select paged (v.lambda built)) := by
  obtain ⟨name, tree, filter, sort, page, projection⟩ := layer
  rw [applyLayer] at yielded
  split at yielded
  · obtain ⟨included, isIncluded, yielded⟩ := Compile.yields_bind yielded
    obtain ⟨filtered, isFiltered, yielded⟩ := Compile.yields_bind yielded
    obtain ⟨ordered, isOrdered, yielded⟩ := Compile.yields_bind yielded
    obtain ⟨paged, isPaged, yielded⟩ := Compile.yields_bind yielded
    refine ⟨paged, ⟨included, filtered, ordered, isIncluded, isFiltered, isOrdered, isPaged⟩, ?_⟩
    cases isBody : compiler.projectionBody projection with
    | none =>
      simp only [isBody] at yielded
      exact .inl ⟨rfl, (Compile.yields_done yielded).symm⟩
    | some body =>
      simp only [isBody] at yielded
      obtain ⟨v, yielded⟩ := Compile.yields_withVariable yielded
      obtain ⟨built, isBuilt, yielded⟩ := Compile.yields_bind yielded
      exact .inr ⟨body, built, v, rfl, isBuilt, (Compile.yields_done yielded).symm⟩
  · exact absurd yielded Compile.not_yields_fail

theorem applyLayer_of_compile {layer : Layer} {query : Query}
    (compiled : compiler.compile layer = .ok query) :
    ∃ type, compiler.schema.type? layer.type = some type ∧
      (compiler.applyLayer layer (.source type.name type.element) type).Yields query := by
  have yielded : (compiler.compileIn layer).Yields query :=
    ⟨Context.start, (compiler.compileIn layer Context.start).2, Prod.ext compiled rfl⟩
  obtain ⟨type, isType, yielded⟩ := Compile.yields_bind yielded
  exact ⟨type, type?_of_type (Compile.yields_ofExcept isType), yielded⟩

/-- The clauses of a layer before its projection choose its rows, and leave paths that its tree is
read back from. -/
theorem Prepares.stage (faithful : evaluator.Faithful compiler test) {layer : Layer}
    {type : ResourceType} {env : Env} {source paged : Query} {rows : List Json}
    (prepares : compiler.Prepares layer type source paged) (known : type ∈ compiler.schema.types)
    (stage : Stage compiler evaluator test env type [] source (some rows)) :
    ∃ paths, Include.ofChains (paths.map Chain.ofText) = .ok (Schema.shownTree layer.tree) ∧
      Stage compiler evaluator test env type paths paged
        (compiler.schema.chosen? evaluator.sorter layer.filter layer.sort layer.page type rows) := by
  obtain ⟨included, filtered, ordered, isIncluded, isFiltered, isOrdered, isPaged⟩ := prepares
  obtain ⟨paths, made, stage⟩ : ∃ paths,
      Include.ofChains (paths.map Chain.ofText) = .ok (Schema.shownTree layer.tree) ∧
      Stage compiler evaluator test env type paths included (some rows) := by
    rcases yields_optionally isIncluded with ⟨isNone, rfl⟩ | ⟨tree, isTree, yielded⟩
    · exact ⟨[], isNone ▸ rfl, stage⟩
    · obtain ⟨paths, chains, stage⟩ := includeClause_stage faithful known yielded stage
      exact ⟨paths, chains ▸ isTree ▸ tree.ofChains_toChains, stage⟩
  have stage : Stage compiler evaluator test env type paths filtered
      (some (compiler.schema.kept layer.filter type rows)) := by
    rcases yields_optionally isFiltered with ⟨isNone, rfl⟩ | ⟨filter, isFilter, yielded⟩
    · exact isNone ▸ stage
    · obtain ⟨v, yielded⟩ := Compile.yields_withVariable yielded
      exact isFilter ▸ filterClause_stage faithful known yielded stage
  have stage : Stage compiler evaluator test env type paths ordered
      (compiler.schema.ordered? evaluator.sorter layer.sort type
        (compiler.schema.kept layer.filter type rows)) := by
    rcases yields_optionally isOrdered with ⟨isNone, rfl⟩ | ⟨sorting, isSorting, yielded⟩
    · exact isNone ▸ stage
    · obtain ⟨v, yielded⟩ := Compile.yields_withVariable yielded
      exact isSorting ▸ sortClause_stage faithful known yielded stage
  refine ⟨paths, made, ?_⟩
  rcases yields_optionally isPaged with ⟨isNone, rfl⟩ | ⟨page, isPage, yielded⟩
  · have unchanged : Schema.paged none = id := rfl
    rw [Schema.chosen?, isNone, unchanged, Option.map_id]
    exact stage
  · rw [Schema.chosen?, isPage]
    exact Compile.yields_done yielded ▸ pageClause_stage page stage

theorem select_runs {body : Expr → ResourceType → Compile Expr}
    {object : ResourceType → Json → Option Json} (makes : compiler.Makes evaluator test body object)
    {v : Variable} {built : Expr} {type : ResourceType} {rows : List Json} (env : Env)
    (known : type ∈ compiler.schema.types) (yielded : (body v.accessor type).Yields built)
    (resources : ∀ row ∈ rows, compiler.schema.Resource test type.name row) :
    mapItems (fun row => evaluator.apply (v.lambda built) row env) rows =
      unlessDisordered (rows.mapM (object type)) := by
  refine mapItems_eq_mapM fun row member => ?_
  rw [Evaluator.apply_eq]
  exact makes _ _ _ _ _ yielded known (Evaluator.eval_parameter v.name row)
    (resources row member)

mutual

/-- A compiled layer is answered with what the layer means for the resources of its source. -/
theorem applyLayer_answers (faithful : evaluator.Faithful compiler test) :
    ∀ layer : Layer, compiler.ClausesAnswer evaluator test (compiler.applyLayer layer)
      (compiler.schema.answers? evaluator.sorter compiler.settings layer)
  | ⟨name, tree, filter, sort, page, projection⟩, source, type, query, env, rows, yielded, known,
      stage => by
    obtain ⟨paged, prepares, built⟩ := applyLayer_cases yielded
    obtain ⟨paths, made, stage⟩ := prepares.stage faithful known stage
    have objects := projectionBody_makes faithful projection
    rw [Schema.answers?]
    rcases built with ⟨isBody, rfl⟩ | ⟨body, built, v, isBody, isBuilt, rfl⟩
    · cases isObject : compiler.schema.projected? evaluator.sorter compiler.settings projection with
      | none =>
        rw [stage.runs]
        exact unlessDisordered_bind fun rows _ => Stage.answer_unprojected stage rows made
      | some _ =>
        rw [isBody, isObject] at objects
        exact objects.elim
    · cases isObject : compiler.schema.projected? evaluator.sorter compiler.settings projection with
      | none =>
        rw [isBody, isObject] at objects
        exact objects.elim
      | some object =>
        rw [isBody, isObject] at objects
        rw [Evaluator.runWith, stage.runs, bind_assoc]
        refine unlessDisordered_bind fun rows isRows => ?_
        rw [select_runs objects env known isBuilt (stage.resources rows isRows)]
        change _ = unlessDisordered ((rows.mapM (object type)).map (List.map Json.untag))
        cases rows.mapM (object type) <;> rfl

theorem layerBody_makes (faithful : evaluator.Faithful compiler test) :
    ∀ layer : Layer, compiler.MakesObject evaluator test (compiler.layerBody layer)
      (compiler.schema.layerObject? evaluator.sorter compiler.settings layer)
  | ⟨_, _, _, _, _, projection⟩ => by
    rw [layerBody, Schema.layerObject?]
    exact projectionBody_makes faithful projection

theorem projectionBody_makes (faithful : evaluator.Faithful compiler test) :
    ∀ projection : Option (List Selection),
      compiler.MakesObject evaluator test (compiler.projectionBody projection)
        (compiler.schema.projected? evaluator.sorter compiler.settings projection)
  | none => by
    rw [projectionBody, Schema.projected?]
    trivial
  | some selections => by
    rw [projectionBody, Schema.projected?]
    split
    · trivial
    · exact record_makes faithful (selections_make faithful selections)

theorem selections_make (faithful : evaluator.Faithful compiler test) :
    ∀ (selections : List Selection), ∀ selection ∈ selections,
      compiler.BindingMakes evaluator test (compiler.binding selection)
        (compiler.schema.selected? evaluator.sorter compiler.settings selection)
  | [] => by
    intro selection member
    cases member
  | first :: rest => List.forall_mem_cons.mpr
    ⟨selection_makes faithful first, selections_make faithful rest⟩

theorem selection_makes (faithful : evaluator.Faithful compiler test) :
    ∀ selection : Selection,
      compiler.BindingMakes evaluator test (compiler.binding selection)
        (compiler.schema.selected? evaluator.sorter compiler.settings selection)
  | .field name => by
    rw [binding]
    simp only [Schema.selected?]
    exact plainBinding_makes faithful name
  | .nested name layer => by
    rw [binding]
    simp only [Schema.selected?]
    exact nestedValue_makes faithful (applyLayer_answers faithful layer)
      (layerBody_makes faithful layer)

end

end Compiler

end LayeredQuery
