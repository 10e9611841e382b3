import LayeredQuery.Proofs.Compiler.Loading
import LayeredQuery.Proofs.Store.Session

/-!
# What clauses choose from

Before its projection a layer makes nothing new: the clauses load paths, keep some of the rows, put
them in another order and take a part of them. So whenever the plan of a layer without a projection
runs to rows at all, each of them is stored, and the rows are shown with the tree of the layer.
-/

set_option autoImplicit false

namespace LayeredQuery

/-! ## Lists of rows -/

theorem keepItems_sublist {test : Json → Except RunError Bool} {items : List Json} :
    ∀ {kept : List Json}, keepItems test items = .ok kept → kept.Sublist items := by
  induction items with
  | nil =>
    intro kept ran
    cases ran
    exact .slnil
  | cons item rest ih =>
    intro kept ran
    rw [keepItems] at ran
    cases tested : test item with
    | error _ => simp [tested] at ran
    | ok held =>
      cases later : keepItems test rest with
      | error _ => simp [tested, later] at ran
      | ok others =>
        simp only [tested, later, Except.ok.injEq] at ran
        subst ran
        cases held with
        | true => exact (ih later).cons_cons item
        | false => exact (ih later).cons item

theorem mapItems_keyedRow {keys : List RowKey} {rows : List Json} :
    ∀ {keyed : List KeyedRow}, mapItems (keyedRow keys) rows = .ok keyed →
      keyed.map Prod.snd = rows := by
  induction rows with
  | nil =>
    intro keyed ran
    cases ran
    rfl
  | cons row rest ih =>
    intro keyed ran
    rw [mapItems, keyedRow] at ran
    cases computed : mapItems (fun (key : RowKey) => key.value row) keys with
    | error _ => simp [computed] at ran
    | ok values =>
      cases later : mapItems (keyedRow keys) rest with
      | error _ => simp [computed, later] at ran
      | ok others =>
        simp only [computed, later, Except.ok.injEq] at ran
        subst ran
        exact congrArg (row :: ·) (ih later)

theorem sortRows_perm {sorter : Sorter KeyedRow} {keys : List RowKey} {rows sorted : List Json}
    (ran : sortRows sorter keys rows = .ok sorted) : sorted.Perm rows := by
  cases keys with
  | nil =>
    cases ran
    exact .refl _
  | cons key others =>
    rw [sortRows] at ran
    cases computed : mapItems (keyedRow (key :: others)) rows with
    | error _ => simp [computed] at ran
    | ok keyed =>
      simp only [computed] at ran
      rw [← mapItems_keyedRow computed]
      exact sortKeyed_perm (unlessDisordered_eq_ok.mp ran)

theorem sortRows_subset {sorter : Sorter KeyedRow} {keys : List RowKey}
    {rows sorted reached : List Json} (ran : sortRows sorter keys rows = .ok sorted)
    (within : rows ⊆ reached) : sorted ⊆ reached :=
  fun _ member => within ((sortRows_perm ran).subset member)

/-! ## Queries that choose -/

/-- A query leads to the queries that choose among its rows. -/
inductive Query.LeadsTo (source : Query) : Query → Prop
  | itself : LeadsTo source source
  | withPath {input : Query} (path : String) (leads : LeadsTo source input) :
      LeadsTo source (.withPath input path)
  | filter {input : Query} (predicate : Lambda) (leads : LeadsTo source input) :
      LeadsTo source (.filter input predicate)
  | orderBy {input : Query} (key : Lambda) (direction : Direction) (thenBy : Bool)
      (leads : LeadsTo source input) : LeadsTo source (.orderBy input key direction thenBy)
  | skip {input : Query} (count : Nat) (leads : LeadsTo source input) :
      LeadsTo source (.skip input count)
  | take {input : Query} (count : Nat) (leads : LeadsTo source input) :
      LeadsTo source (.take input count)

namespace Query.LeadsTo

variable {schema : Schema} {evaluator : Evaluator} {env : Env} {source query : Query}

theorem trans {other : Query} (leads : source.LeadsTo query) (further : query.LeadsTo other) :
    source.LeadsTo other := by
  induction further with
  | itself => exact leads
  | withPath path _ ih => exact ih.withPath path
  | filter predicate _ ih => exact ih.filter predicate
  | orderBy key direction thenBy _ ih => exact ih.orderBy key direction thenBy
  | skip count _ ih => exact ih.skip count
  | take count _ ih => exact ih.take count

theorem rootType_eq (leads : source.LeadsTo query) :
    query.rootType schema = source.rootType schema := by
  induction leads with
  | itself => rfl
  | withPath _ _ ih => rw [rootType, ih]
  | filter _ _ ih => rw [rootType, ih]
  | orderBy _ _ _ _ ih => rw [rootType, ih]
  | skip _ _ ih => rw [rootType, ih]
  | take _ _ ih => rw [rootType, ih]

theorem isProjected_eq_false (leads : source.LeadsTo query)
    (unprojected : source.isProjected = false) : query.isProjected = false := by
  cases leads with
  | itself => exact unprojected
  | _ => rfl

theorem subset (leads : source.LeadsTo query) :
    ∀ {keys : List RowKey} {rows : List Json}, evaluator.runWith query keys env = .ok rows →
      ∃ before reached, evaluator.runWith source before env = .ok reached ∧ rows ⊆ reached := by
  induction leads with
  | itself => exact fun {keys rows} ran => ⟨keys, rows, ran, List.Subset.refl rows⟩
  | withPath path _ ih =>
    intro keys rows ran
    rw [Evaluator.runWith] at ran
    obtain ⟨inner, innerRan, sorted⟩ := ok_of_bind ran
    obtain ⟨before, reached, reachedRan, within⟩ := ih innerRan
    exact ⟨before, reached, reachedRan, sortRows_subset sorted within⟩
  | filter predicate _ ih =>
    intro keys rows ran
    rw [Evaluator.runWith] at ran
    obtain ⟨inner, innerRan, ran⟩ := ok_of_bind ran
    obtain ⟨kept, keptFrom, sorted⟩ := ok_of_bind ran
    obtain ⟨before, reached, reachedRan, within⟩ := ih innerRan
    exact ⟨before, reached, reachedRan, sortRows_subset sorted
      (List.Subset.trans (keepItems_sublist keptFrom).subset within)⟩
  | orderBy key direction thenBy _ ih =>
    intro keys rows ran
    rw [Evaluator.runWith] at ran
    cases thenBy with
    | true => exact ih ran
    | false =>
      obtain ⟨inner, innerRan, sorted⟩ := ok_of_bind ran
      obtain ⟨before, reached, reachedRan, within⟩ := ih innerRan
      exact ⟨before, reached, reachedRan, sortRows_subset sorted within⟩
  | skip count _ ih =>
    intro keys rows ran
    rw [Evaluator.runWith] at ran
    obtain ⟨inner, innerRan, sorted⟩ := ok_of_bind ran
    obtain ⟨before, reached, reachedRan, within⟩ := ih innerRan
    exact ⟨before, reached, reachedRan, sortRows_subset sorted
      (List.Subset.trans (List.drop_subset count inner) within)⟩
  | take count _ ih =>
    intro keys rows ran
    rw [Evaluator.runWith] at ran
    obtain ⟨inner, innerRan, sorted⟩ := ok_of_bind ran
    obtain ⟨before, reached, reachedRan, within⟩ := ih innerRan
    exact ⟨before, reached, reachedRan, sortRows_subset sorted
      (List.Subset.trans (List.take_subset count inner) within)⟩

end Query.LeadsTo

/-! ## Clauses -/

namespace Compiler

variable {compiler : Compiler} {type : ResourceType} {source query : Query}

theorem leadsTo_withPaths (paths : List String) :
    ∀ source : Query, source.LeadsTo (withPaths source paths) := by
  unfold withPaths
  induction paths with
  | nil => exact fun source => .itself
  | cons path rest ih =>
    intro source
    rw [List.foldl_cons]
    exact (Query.LeadsTo.itself.withPath path).trans (ih _)

theorem leadsTo_filterClause {filter : Filter} {v : Variable}
    (yielded : (compiler.filterClause source filter v type).Yields query) :
    source.LeadsTo query := by
  obtain ⟨body, _, yielded⟩ := Compile.yields_bind yielded
  rw [← Compile.yields_done yielded]
  exact .filter _ .itself

theorem leadsTo_orderByKeys {v : Variable} :
    ∀ (keys : List SortKey) (thenBy : Bool) (source query : Query),
      (compiler.orderByKeys v type keys thenBy source).Yields query → source.LeadsTo query := by
  intro keys
  induction keys with
  | nil =>
    intro thenBy source query yielded
    rw [Compile.yields_done yielded]
    exact .itself
  | cons key rest ih =>
    intro thenBy source query yielded
    obtain ⟨value, _, yielded⟩ := Compile.yields_bind yielded
    exact (Query.LeadsTo.itself.orderBy _ _ _).trans (ih true _ query yielded)

theorem leadsTo_sortClause {sorting : Sorting} {v : Variable}
    (yielded : (compiler.sortClause source sorting v type).Yields query) :
    source.LeadsTo query := by
  unfold sortClause at yielded
  split at yielded
  · exact absurd yielded Compile.not_yields_fail
  · exact leadsTo_orderByKeys _ _ _ _ yielded

theorem leadsTo_pageClause (source : Query) (page : Page) :
    source.LeadsTo (pageClause source page) := by
  have skipped : source.LeadsTo (if 0 < page.skip then .skip source page.skip else source) := by
    split
    · exact .skip _ .itself
    · exact .itself
  unfold pageClause
  cases page.take with
  | none => exact skipped
  | some count => exact skipped.take count

theorem leadsTo_optionally {α : Type} {clause : α → Query → Compile Query} {value? : Option α}
    (each : ∀ {value source query}, (clause value source).Yields query → source.LeadsTo query)
    (yielded : (optionally clause value? source).Yields query) : source.LeadsTo query := by
  cases value? with
  | none =>
    rw [Compile.yields_done yielded]
    exact .itself
  | some value => exact each yielded

theorem Prepares.leadsTo {layer : Layer} (prepares : compiler.Prepares layer type source query) :
    source.LeadsTo query := by
  obtain ⟨included, filtered, sorted, isIncluded, isFiltered, isSorted, isPaged⟩ := prepares
  have loading : source.LeadsTo included := leadsTo_optionally (fun yielded => by
    obtain ⟨paths, _, yielded⟩ := Compile.yields_bind yielded
    rw [← Compile.yields_done yielded]
    exact leadsTo_withPaths paths _) isIncluded
  have filtering : included.LeadsTo filtered := leadsTo_optionally (fun yielded => by
    obtain ⟨v, yielded⟩ := Compile.yields_withVariable yielded
    exact leadsTo_filterClause yielded) isFiltered
  have sorting : filtered.LeadsTo sorted := leadsTo_optionally (fun yielded => by
    obtain ⟨v, yielded⟩ := Compile.yields_withVariable yielded
    exact leadsTo_sortClause yielded) isSorted
  have paging : sorted.LeadsTo query := leadsTo_optionally (fun {page _ _} yielded => by
    rw [← Compile.yields_done yielded]
    exact leadsTo_pageClause _ page) isPaged
  exact ((loading.trans filtering).trans sorting).trans paging

/-! ## Answers -/

/-- The answer to a query that leads from the resources of a type without a projection. -/
theorem execute_of_leadsTo {evaluator : Evaluator} (coherent : evaluator.schema.Coherent)
    (known : type ∈ evaluator.schema.types)
    (leads : (Query.source type.name type.element).LeadsTo query) {tree : Include}
    (loads : Include.ofChains (query.paths.map Chain.ofText) = .ok tree) {rows : List Json}
    (executed : evaluator.execute query = .ok rows) :
    ∃ chosen, chosen ⊆ evaluator.schema.storedRows evaluator.store type ∧
      rows = chosen.map (evaluator.schema.shape type.name tree) := by
  rw [Evaluator.execute] at executed
  cases ran : evaluator.run query with
  | error _ => simp [ran] at executed
  | ok chosen =>
    have root : query.rootType evaluator.schema = .ok type.name := leads.rootType_eq
    simp only [ran, Query.answer, leads.isProjected_eq_false rfl, root, Schema.shapeRows, loads,
      Bool.false_eq_true, if_false, Except.ok.injEq] at executed
    obtain ⟨before, reached, reachedRan, within⟩ := leads.subset ran
    rw [Evaluator.runWith, Evaluator.scan, coherent.type?_of_mem known] at reachedRan
    exact ⟨chosen, List.Subset.trans within (sortRows_perm reachedRan).subset, executed.symm⟩

end Compiler

end LayeredQuery
