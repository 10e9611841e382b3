import LayeredQuery.Proofs.Compiler.Inclusion
import LayeredQuery.Proofs.Compiler.Predicate
import LayeredQuery.Proofs.Evaluation.RowSort
import LayeredQuery.Proofs.Meaning.Layer

/-!
# What the clauses of a layer compile to

Before its projection a layer is a chain of clauses, each of which takes a query over resources to a
query over resources. A stage says what is known of such a query: the rows it runs to unless a sort
fails, the type and the paths it will be answered with. Every clause takes a stage to a stage whose
rows are what the clause means for the rows before it.
-/

set_option autoImplicit false

namespace LayeredQuery

/-- A query over resources of a type that runs to the given rows in an environment, if there are
any. -/
structure Stage (compiler : Compiler) (evaluator : Evaluator) (test : AttributeTest) (env : Env)
    (type : ResourceType) (paths : List String) (query : Query) (rows? : Option (List Json)) :
    Prop where
  runs : evaluator.runWith query [] env = unlessDisordered rows?
  root : query.rootType compiler.schema = .ok type.name
  loaded : query.paths = paths
  unprojected : query.isProjected = false
  resources : ∀ rows, rows? = some rows → ∀ row ∈ rows, compiler.schema.Resource test type.name row

namespace Compiler

variable {compiler : Compiler} {evaluator : Evaluator} {test : AttributeTest} {env : Env}

theorem sortValue_denotes (faithful : evaluator.Faithful compiler test) (target : Target) :
    compiler.Denotes evaluator test (compiler.sortValue target)
      fun owner row => (compiler.schema.operandValues owner row (.target target)).headD .null := by
  intro current owner body env row yielded known evaluated resource
  cases target with
  | field chain =>
    obtain ⟨⟨value, resolved⟩, single, yielded⟩ := Compile.yields_bind yielded
    obtain ⟨found, ends, read, _⟩ :=
      singleValue_eval faithful.toReads (Compile.yields_mapError single) known evaluated resource
    simp only at yielded
    split at yielded
    · have isBody := Compile.yields_done yielded
      subst isBody
      simpa [Schema.operandValues, ends] using read
    · exact absurd yielded Compile.not_yields_fail
    · exact absurd yielded Compile.not_yields_fail
  | count chain =>
    obtain ⟨⟨value, resolved⟩, single, yielded⟩ := Compile.yields_bind yielded
    obtain ⟨found, ends, read, held⟩ :=
      singleValue_eval faithful.toReads (Compile.yields_mapError single) known evaluated resource
    obtain ⟨_, passed, yielded⟩ := Compile.yields_bind yielded
    have isBody := Compile.yields_done yielded
    subst isBody
    obtain ⟨_, _, readable⟩ := readable_of_checkToMany (Compile.yields_ofExcept passed) held
    simpa [Schema.operandValues, ends] using Evaluator.eval_count read readable

/-- What a chain of orders is: keys that go before those that are still to come, of which the values
are those of the sort keys. -/
structure Orders (compiler : Compiler) (evaluator : Evaluator) (test : AttributeTest) (env : Env)
    (type : ResourceType) (keys : List SortKey) (rowKeys : List RowKey) : Prop where
  directions : rowKeys.map RowKey.direction = keys.map SortKey.direction
  values : ∀ row, compiler.schema.Resource test type.name row →
    mapItems (fun (key : RowKey) => key.value row) rowKeys =
      .ok (keys.map fun key => compiler.schema.keyValue type key row)

theorem Orders.cons (faithful : evaluator.Faithful compiler test) {type : ResourceType}
    {key : SortKey} {keys : List SortKey} {rowKeys : List RowKey} {v : Variable} {value : Expr}
    (known : type ∈ compiler.schema.types)
    (yielded : (compiler.sortValue key.target v.accessor type).Yields value)
    (orders : Orders compiler evaluator test env type keys rowKeys) :
    Orders compiler evaluator test env type (key :: keys)
      (⟨fun row => evaluator.apply (v.lambda value) row env, key.direction⟩ :: rowKeys) where
  directions := congrArg (key.direction :: ·) orders.directions
  values row resource := by
    have here : evaluator.apply (v.lambda value) row env =
        .ok (compiler.schema.keyValue type key row) := by
      rw [Evaluator.apply_eq]
      exact sortValue_denotes faithful key.target _ _ _ _ _ yielded known
        (Evaluator.eval_parameter v.name row) resource
    simp only [mapItems, here, orders.values row resource]
    rfl

theorem orderByKeys_thenBy (faithful : evaluator.Faithful compiler test) (env : Env) {v : Variable}
    {type : ResourceType} (known : type ∈ compiler.schema.types) :
    ∀ (keys : List SortKey) (query result : Query),
      (compiler.orderByKeys v type keys true query).Yields result →
      ∃ rowKeys, Orders compiler evaluator test env type keys rowKeys ∧
        (∀ more, evaluator.runWith result more env =
          evaluator.runWith query (rowKeys ++ more) env) ∧
        result.rootType compiler.schema = query.rootType compiler.schema ∧
        result.paths = query.paths ∧
        (query.isProjected = false → result.isProjected = false) := by
  intro keys
  induction keys with
  | nil =>
    intro query result yielded
    have isResult := Compile.yields_done yielded
    subst isResult
    exact ⟨[], ⟨rfl, fun _ _ => rfl⟩, fun _ => rfl, rfl, rfl, id⟩
  | cons key rest ih =>
    intro query result yielded
    obtain ⟨value, isValue, yielded⟩ := Compile.yields_bind yielded
    obtain ⟨rowKeys, orders, runs, root, loaded, unprojected⟩ := ih _ _ yielded
    refine ⟨_, orders.cons faithful known isValue, ?_, root, loaded, fun _ => unprojected rfl⟩
    intro more
    rw [runs, Evaluator.runWith, if_pos rfl]
    rfl

theorem sortClause_stage (faithful : evaluator.Faithful compiler test) {sorting : Sorting}
    {v : Variable} {type : ResourceType} {paths : List String} {query result : Query}
    {rows : List Json} (known : type ∈ compiler.schema.types)
    (yielded : (compiler.sortClause query sorting v type).Yields result)
    (stage : Stage compiler evaluator test env type paths query (some rows)) :
    Stage compiler evaluator test env type paths result
      (compiler.schema.sorted? evaluator.sorter sorting type rows) := by
  unfold sortClause at yielded
  split at yielded
  · exact absurd yielded Compile.not_yields_fail
  · obtain ⟨keys⟩ := sorting
    cases keys with
    | nil => rename_i notEmpty; exact absurd rfl notEmpty
    | cons key rest =>
      obtain ⟨value, isValue, yielded⟩ := Compile.yields_bind yielded
      obtain ⟨rowKeys, orders, runs, root, loaded, unprojected⟩ :=
        orderByKeys_thenBy faithful env known rest _ _ yielded
      have all := orders.cons faithful known isValue
      have sorted := sortRows_eq evaluator.sorter fun row member =>
        all.values row (stage.resources rows rfl row member)
      refine ⟨?_, root.trans stage.root, loaded.trans stage.loaded, unprojected rfl, ?_⟩
      · rw [runs, Evaluator.runWith, if_neg (by simp), stage.runs]
        exact (congrArg (sortRows evaluator.sorter · rows) (List.append_nil _)).trans
          (sorted.trans (by rw [all.directions, Schema.sorted?]))
      · intro others found row member
        have perm := sortKeyed_perm found
        rw [List.map_map] at perm
        exact stage.resources rows rfl row ((perm.trans (.of_eq (List.map_id' rows))).subset member)

/-! ## Other clauses -/

theorem withPaths_stage {type : ResourceType} :
    ∀ {more paths : List String} {query : Query} {rows? : Option (List Json)},
      Stage compiler evaluator test env type paths query rows? →
      Stage compiler evaluator test env type (paths ++ more) (withPaths query more) rows? := by
  intro more
  induction more with
  | nil =>
    intro paths query rows? stage
    rw [List.append_nil]
    exact stage
  | cons path rest ih =>
    intro paths query rows? stage
    have next : Stage compiler evaluator test env type (paths ++ [path]) (.withPath query path)
        rows? := by
      refine ⟨?_, stage.root, congrArg (· ++ [path]) stage.loaded, rfl, stage.resources⟩
      rw [Evaluator.runWith, stage.runs]
      cases rows? <;> rfl
    have done := ih next
    rw [List.append_assoc] at done
    exact done

/-- An include clause leaves the rows and adds paths that the tree is read back from. -/
theorem includeClause_stage (faithful : evaluator.Faithful compiler test) {tree : Include}
    {type : ResourceType} {query result : Query} {rows? : Option (List Json)}
    (known : type ∈ compiler.schema.types)
    (yielded : (compiler.includeClause query tree type).Yields result)
    (stage : Stage compiler evaluator test env type [] query rows?) :
    ∃ paths, paths.map Chain.ofText = tree.toChains ∧
      Stage compiler evaluator test env type paths result rows? := by
  obtain ⟨paths, arePaths, yielded⟩ := Compile.yields_bind yielded
  have isResult := Compile.yields_done yielded
  subst isResult
  exact ⟨paths, map_ofText_includePaths faithful.coherent arePaths known, withPaths_stage stage⟩

theorem filterClause_stage (faithful : evaluator.Faithful compiler test) {filter : Filter}
    {v : Variable} {type : ResourceType} {paths : List String} {query result : Query}
    {rows : List Json} (known : type ∈ compiler.schema.types)
    (yielded : (compiler.filterClause query filter v type).Yields result)
    (stage : Stage compiler evaluator test env type paths query (some rows)) :
    Stage compiler evaluator test env type paths result
      (some (rows.filter (compiler.schema.satisfies filter type))) := by
  obtain ⟨predicate, rfl, decides⟩ := filterClause_eval yielded known
  refine ⟨?_, stage.root, stage.loaded, rfl, ?_⟩
  · have decided : ∀ row ∈ rows, evaluator.test predicate row env =
        .ok (compiler.schema.satisfies filter type row) := fun row member =>
      Evaluator.test_of_apply (decides faithful row env (stage.resources rows rfl row member))
    rw [Evaluator.runWith, stage.runs, unlessDisordered, ok_bind, keepItems_eq decided, ok_bind]
    rfl
  · intro others found row member
    cases found
    exact stage.resources rows rfl row (List.mem_filter.mp member).1

theorem runWith_pageClause_map (query : Query) (page : Page) :
    evaluator.runWith (pageClause query page) [] env =
      (evaluator.runWith query [] env).map page.window := by
  have skipped : evaluator.runWith (if 0 < page.skip then .skip query page.skip else query) [] env =
      (evaluator.runWith query [] env).map (List.drop page.skip) := by
    split
    · rw [Evaluator.runWith]
      cases evaluator.runWith query [] env <;> rfl
    · rename_i nothing
      rw [Nat.eq_zero_of_not_pos nothing]
      cases evaluator.runWith query [] env <;> rfl
  unfold pageClause Page.window
  cases page.take with
  | none => exact skipped
  | some count =>
    simp only [Evaluator.runWith, skipped]
    cases evaluator.runWith query [] env <;> rfl

theorem runWith_pageClause {query : Query} {rows : List Json} (page : Page)
    (runs : evaluator.runWith query [] env = .ok rows) :
    evaluator.runWith (pageClause query page) [] env = .ok (page.window rows) := by
  rw [runWith_pageClause_map, runs]
  rfl

theorem mem_of_mem_window {page : Page} {rows : List Json} {row : Json}
    (member : row ∈ page.window rows) : row ∈ rows := by
  unfold Page.window at member
  split at member
  · exact List.mem_of_mem_drop member
  · exact List.mem_of_mem_drop (List.mem_of_mem_take member)

theorem pageClause_stage {type : ResourceType} {paths : List String} {query : Query}
    {rows? : Option (List Json)} (page : Page)
    (stage : Stage compiler evaluator test env type paths query rows?) :
    Stage compiler evaluator test env type paths (pageClause query page)
      (rows?.map page.window) := by
  refine ⟨?_, ?_, ?_, ?_, ?_⟩
  · rw [runWith_pageClause_map, stage.runs]
    cases rows? <;> rfl
  · unfold pageClause
    cases page.take <;> dsimp only [Query.rootType] <;> split <;> exact stage.root
  · unfold pageClause
    cases page.take <;> dsimp only [Query.paths] <;> split <;> exact stage.loaded
  · unfold pageClause
    cases page.take with
    | none =>
      dsimp only
      split
      · rfl
      · exact stage.unprojected
    | some count => rfl
  · intro others found row member
    obtain ⟨rows, isRows, rfl⟩ := Option.map_eq_some_iff.mp found
    exact stage.resources rows isRows row (mem_of_mem_window member)

/-! ## Answers -/

theorem Stage.answer_unprojected {type : ResourceType} {paths : List String} {query : Query}
    {rows? : Option (List Json)} {tree : Include}
    (stage : Stage compiler evaluator test env type paths query rows?) (rows : List Json)
    (made : Include.ofChains (paths.map Chain.ofText) = .ok tree) :
    query.answer compiler.schema rows =
      .ok (rows.map (compiler.schema.shape type.name tree)) := by
  unfold Query.answer Schema.shapeRows
  simp only [stage.unprojected, stage.root, stage.loaded, made]
  rfl

end Compiler

end LayeredQuery
