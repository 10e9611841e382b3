import Mathlib.Data.List.Forall2
import LayeredQuery.Proofs.Evaluation.SortOrder
import LayeredQuery.Proofs.Execution

/-!
# Sort keys sort

The keys of a sort compile to one chain of orders, in which the first key is the primary one. Run
over rows that each key orders, the chain sorts them by all keys at once, and stably so. This is
what sorting by one key after the other does, from the last key to the first.

A chain ends with its primary order. A query that was in an order before keeps that order as a
query of its own underneath, where it breaks the ties of the chain above it.
-/

set_option autoImplicit false

namespace LayeredQuery

/-! ## Chains of orders -/

structure OrderKey where
  key : Lambda
  direction : Direction

namespace Query

def orderBase : Query → Query
  | .orderBy input _ _ thenBy => if thenBy then orderBase input else input
  | query => query

def orderKeys : Query → List OrderKey
  | .orderBy input key direction thenBy =>
    (if thenBy then orderKeys input else []) ++ [⟨key, direction⟩]
  | _ => []

end Query

namespace OrderKey

def rowKey (evaluator : Evaluator) (env : Env) (key : OrderKey) : RowKey :=
  ⟨fun row => evaluator.apply key.key row env, key.direction⟩

def valueOf (evaluator : Evaluator) (env : Env) (key : OrderKey) (row : Json) : Json :=
  (evaluator.apply key.key row env).toOption.getD .null

def order (value : OrderKey → Json → Json) (key : OrderKey) (x y : Json) : Ordering :=
  Json.sortOrder key.direction (value key x) (value key y)

end OrderKey

namespace Evaluator

variable {evaluator : Evaluator} {env : Env}

theorem bind_sortRows (sorter : Sorter KeyedRow) (rows : Except RunError (List Json))
    (keys : List RowKey) :
    (rows >>= sortRows sorter keys) = ((rows >>= sortRows sorter []) >>= sortRows sorter keys) := by
  cases rows <;> rfl

/-- A query runs to the rows under its chain of orders, sorted by the keys of the chain. -/
theorem runWith_eq (evaluator : Evaluator) (env : Env) : ∀ (query : Query) (more : List RowKey),
    evaluator.runWith query more env = (evaluator.runWith query.orderBase [] env >>=
      sortRows evaluator.sorter (query.orderKeys.map (OrderKey.rowKey evaluator env) ++ more))
  | .source type element, more => by
    simp only [Query.orderBase, Query.orderKeys, runWith]
    exact bind_sortRows _ _ more
  | .navigation items element, more => by
    simp only [Query.orderBase, Query.orderKeys, runWith]
    cases evaluator.eval items env with
    | error _ => rfl
    | ok value => exact bind_sortRows _ (sequence items value) more
  | .withPath input path, more => by
    simp only [Query.orderBase, Query.orderKeys, runWith]
    exact bind_sortRows _ _ more
  | .filter input predicate, more => by
    simp only [Query.orderBase, Query.orderKeys, runWith]
    cases evaluator.runWith input [] env with
    | error _ => rfl
    | ok rows => exact bind_sortRows _ (keepItems _ rows) more
  | .orderBy input key direction thenBy, more => by
    cases thenBy with
    | false => rfl
    | true =>
      have below := runWith_eq evaluator env input
        (OrderKey.rowKey evaluator env ⟨key, direction⟩ :: more)
      simp only [Query.orderBase, Query.orderKeys, if_true, List.map_append, List.append_assoc]
      exact below
  | .skip input count, more => by
    simp only [Query.orderBase, Query.orderKeys, runWith]
    cases evaluator.runWith input [] env <;> rfl
  | .take input count, more => by
    simp only [Query.orderBase, Query.orderKeys, runWith]
    cases evaluator.runWith input [] env <;> rfl
  | .select input selector, more => by
    simp only [Query.orderBase, Query.orderKeys, runWith]
    cases evaluator.runWith input [] env with
    | error _ => rfl
    | ok rows => exact bind_sortRows _ (mapItems _ rows) more

end Evaluator

/-! ## Compiled keys -/

namespace Compiler

/-- An order by a sort key: its lambda is over the variable of the sort and has what the key
compiles to. -/
def OrdersBy (compiler : Compiler) (v : Variable) (type : ResourceType) (sortKey : SortKey)
    (key : OrderKey) : Prop :=
  key.direction = sortKey.direction ∧
    ∃ value, (compiler.sortValue sortKey.target v.accessor type).Yields value ∧
      key.key = v.lambda value

variable {compiler : Compiler} {v : Variable} {type : ResourceType}

theorem orderByKeys_chain : ∀ {keys : List SortKey} {query result : Query},
    (compiler.orderByKeys v type keys true query).Yields result →
    result.orderBase = query.orderBase ∧
      ∃ more, result.orderKeys = query.orderKeys ++ more ∧
        List.Forall₂ (compiler.OrdersBy v type) keys more := by
  intro keys
  induction keys with
  | nil =>
    intro query result yielded
    obtain rfl := Compile.yields_done yielded
    exact ⟨rfl, [], (List.append_nil _).symm, .nil⟩
  | cons key rest ih =>
    intro query result yielded
    obtain ⟨value, isValue, yielded⟩ := Compile.yields_bind yielded
    obtain ⟨sameBase, more, keys, compiled⟩ := ih yielded
    refine ⟨sameBase, ⟨v.lambda value, key.direction⟩ :: more, ?_, ?_⟩
    · simpa [Query.orderKeys] using keys
    · exact .cons ⟨rfl, value, isValue, rfl⟩ compiled

/-- The keys of a sort are those of the chain that it compiles to, which ends at the source. -/
theorem sortClause_chain {source query : Query} {sorting : Sorting}
    (yielded : (compiler.sortClause source sorting v type).Yields query) :
    query.orderBase = source ∧ query.orderKeys ≠ [] ∧
      List.Forall₂ (compiler.OrdersBy v type) sorting.keys query.orderKeys := by
  obtain ⟨keys⟩ := sorting
  unfold sortClause at yielded
  cases keys with
  | nil => exact absurd yielded Compile.not_yields_fail
  | cons key rest =>
    obtain ⟨value, isValue, yielded⟩ := Compile.yields_bind yielded
    obtain ⟨sameBase, more, keys, compiled⟩ := orderByKeys_chain yielded
    have isChain : query.orderKeys = ⟨v.lambda value, key.direction⟩ :: more := keys
    rw [isChain]
    exact ⟨sameBase, List.cons_ne_nil _ _, .cons ⟨rfl, value, isValue, rfl⟩ compiled⟩

end Compiler

/-! ## Sorted rows -/

/-- Every key has the given value for every row, and orders the rows by these values. -/
structure Sortable (evaluator : Evaluator) (env : Env) (value : OrderKey → Json → Json)
    (keys : List OrderKey) (rows : List Json) : Prop where
  computed : ∀ key ∈ keys, ∀ row ∈ rows, evaluator.apply key.key row env = .ok (value key row)
  preordered : ∀ key ∈ keys, Preorders (Json.sortOrder key.direction) (rows.map (value key))

namespace Sortable

variable {evaluator : Evaluator} {env : Env} {value : OrderKey → Json → Json}
  {keys others : List OrderKey} {rows more : List Json} {sorter : Sorter KeyedRow}

theorem preorders (sortable : Sortable evaluator env value keys rows) :
    ∀ cmp ∈ keys.map (OrderKey.order value), Preorders cmp rows := by
  intro cmp member
  obtain ⟨key, isKey, rfl⟩ := List.mem_map.mp member
  exact (sortable.preordered key isKey).comap

theorem of_subset (sortable : Sortable evaluator env value keys rows) (subset : others ⊆ keys) :
    Sortable evaluator env value others rows :=
  ⟨fun key member => sortable.computed key (subset member),
    fun key member => sortable.preordered key (subset member)⟩

theorem of_perm (sortable : Sortable evaluator env value keys rows) (perm : more.Perm rows) :
    Sortable evaluator env value keys more :=
  ⟨fun key isKey row member => sortable.computed key isKey row (perm.subset member),
    fun key isKey => (sortable.preordered key isKey).of_perm (perm.map _)⟩

theorem of_unmixed
    (computed : ∀ key ∈ keys, ∀ row ∈ rows, (evaluator.apply key.key row env).isOk = true)
    (unmixed : ∀ key ∈ keys, ∀ x ∈ rows, ∀ y ∈ rows, ∀ z ∈ rows,
      Json.mixesRules (key.valueOf evaluator env x) (key.valueOf evaluator env y)
        (key.valueOf evaluator env z) = false) :
    Sortable evaluator env (OrderKey.valueOf evaluator env) keys rows where
  computed key isKey row member := by
    obtain ⟨value, isValue⟩ := exists_eq_ok (computed key isKey row member)
    rw [OrderKey.valueOf, isValue]
    rfl
  preordered key isKey := Json.preorders_of_unmixed (by
    simpa only [List.forall_mem_map] using unmixed key isKey)

theorem sortRows_eq (sortable : Sortable evaluator env value keys rows) :
    sortRows sorter (keys.map (OrderKey.rowKey evaluator env)) rows =
      .ok (sortedBy (lexicographic (keys.map (OrderKey.order value))) rows) := by
  have values : ∀ row ∈ rows,
      mapItems (fun (key : RowKey) => key.value row) (keys.map (OrderKey.rowKey evaluator env)) =
        .ok (keys.map fun key => value key row) := by
    intro row member
    have computed := sortable.computed
    clear sortable
    induction keys with
    | nil => rfl
    | cons key rest ih =>
      have here := computed key List.mem_cons_self row member
      have later := ih fun other isLater => computed other (List.mem_cons_of_mem _ isLater)
      rw [List.map_cons, mapItems, later]
      simp only [OrderKey.rowKey, here]
      rfl
  have directions : (keys.map (OrderKey.rowKey evaluator env)).map RowKey.direction =
      keys.map OrderKey.direction := by
    rw [List.map_map]
    rfl
  have preorders := Preorders.lexicographic sortable.preorders
  have order : (fun x y => compareKeys (keys.map OrderKey.direction)
      (keys.map fun key => value key x) (keys.map fun key => value key y)) =
      lexicographic (keys.map (OrderKey.order value)) :=
    funext fun x => funext fun y => compareKeys_map OrderKey.direction value x y keys
  cases keys with
  | nil =>
    exact congrArg Except.ok
      ((stableSort_foldr sortable.preorders).unique preorders preorders.stableSort_sortedBy)
  | cons key rest =>
    rw [← order] at preorders ⊢
    rw [List.map_cons, LayeredQuery.sortRows_eq sorter values, ← List.map_cons, directions,
      sortKeyed_eq sorter preorders]
    rfl

/-- A query whose chain of orders has these keys runs to a stable sort of the rows under it. -/
theorem stableSort_of_runs {query : Query} {inputs : List Json}
    (sortable : Sortable evaluator env value query.orderKeys inputs)
    (underneath : evaluator.runWith query.orderBase [] env = .ok inputs)
    (ran : evaluator.runWith query [] env = .ok rows) :
    StableSort (lexicographic (query.orderKeys.map (OrderKey.order value))) inputs rows := by
  rw [evaluator.runWith_eq, underneath, ok_bind, List.append_nil, sortable.sortRows_eq,
    Except.ok.injEq] at ran
  exact ran ▸ (Preorders.lexicographic sortable.preorders).stableSort_sortedBy

end Sortable

/-- Where rows tie on the keys before one, null comes last under that one. -/
theorem null_of_lexicographic {value : OrderKey → Json → Json} {earlier later : List OrderKey}
    {key : OrderKey} {x y : Json}
    (le : lexicographic ((earlier ++ key :: later).map (OrderKey.order value)) x y ≠ .gt)
    (tie : lexicographic (earlier.map (OrderKey.order value)) x y = .eq)
    (null : value key x = .null) : value key y = .null := by
  by_contra some
  have apart : OrderKey.order value key x y = .gt := by
    rw [OrderKey.order, null]
    exact Json.sortOrder_null_left some
  rw [List.map_append, lexicographic_append, List.map_cons] at le
  simp only [tie, lexicographic, apart] at le
  exact le rfl

/-- A sort compiles to one chain of orders over its source, which runs to the source's rows in the
order of all keys. Null comes last under each key, equal rows stay in the order they had, and so an
order that the source ends in breaks the ties. -/
theorem sortClause_sorts {compiler : Compiler} {source query : Query} {sorting : Sorting}
    {v : Variable} {type : ResourceType} {before after : Context}
    (accepted : compiler.sortClause source sorting v type before = (.ok query, after)) :
    query.orderBase = source ∧ query.orderKeys ≠ [] ∧
      List.Forall₂ (compiler.OrdersBy v type) sorting.keys query.orderKeys ∧
      ∀ (evaluator : Evaluator) (env : Env) (value : OrderKey → Json → Json) (rows : List Json),
        evaluator.runWith source [] env = .ok rows →
        Sortable evaluator env value query.orderKeys rows →
        ∃ sorted, evaluator.runWith query [] env = .ok sorted ∧
          StableSort (lexicographic (query.orderKeys.map (OrderKey.order value))) rows sorted ∧
          sorted = (query.orderKeys.map (OrderKey.order value)).foldr sortedBy rows ∧
          (sorted.Pairwise fun x y => ∀ earlier key later,
            query.orderKeys = earlier ++ key :: later →
            lexicographic (earlier.map (OrderKey.order value)) x y = .eq →
            value key x = .null → value key y = .null) ∧
          ∀ inputs, evaluator.runWith source.orderBase [] env = .ok inputs →
            Sortable evaluator env value (query.orderKeys ++ source.orderKeys) inputs →
            StableSort
              (lexicographic ((query.orderKeys ++ source.orderKeys).map (OrderKey.order value)))
              inputs sorted := by
  obtain ⟨sameBase, notEmpty, compiled⟩ := Compiler.sortClause_chain ⟨before, after, accepted⟩
  refine ⟨sameBase, notEmpty, compiled, ?_⟩
  intro evaluator env value rows ran sortable
  have preorders := Preorders.lexicographic sortable.preorders
  have runs : evaluator.runWith query [] env =
      .ok (sortedBy (lexicographic (query.orderKeys.map (OrderKey.order value))) rows) := by
    rw [evaluator.runWith_eq, sameBase, ran, ok_bind, List.append_nil, sortable.sortRows_eq]
  have stable := sortable.stableSort_of_runs (sameBase.symm ▸ ran) runs
  refine ⟨_, runs, stable, ?_, ?_, ?_⟩
  · exact stable.unique preorders (stableSort_foldr sortable.preorders)
  · refine stable.ordered.imp fun {x y} le earlier key later isChain => ?_
    exact null_of_lexicographic (isChain ▸ le)
  · intro inputs underneath all
    have old := (all.of_subset (List.subset_append_right _ _)).stableSort_of_runs underneath ran
    have new := (all.of_subset (List.subset_append_left _ _)).preorders
    rw [List.map_append, lexicographic_append]
    exact .andThen (.lexicographic new) old stable

namespace Shelf

def books : List Json :=
  [("Hard Times", "authors", 2), ("Diary", "people", 0), ("Agnes Grey", "authors", 1),
    ("Emma", "authors", 2)].map fun (title, writer, reviews) =>
      .ofEntries [("title", .string title),
        ("author", .ofEntries [("$type", .string writer), ("penName", .string "Boz")]),
        ("reviews", .array (List.replicate reviews .null))]

def evaluator : Evaluator :=
  .plain schema (Engine.after schema (books.map (.insert "books"))).store .standard

def byTitle : OrderKey := ⟨⟨"b", "Book", .member (.parameter "b") "title"⟩, .ascending⟩

def catalog : Query := .orderBy (.source "books" "Book") byTitle.key byTitle.direction false

def sorting : Sorting :=
  ⟨[⟨.field ⟨["author", "penName"]⟩, .descending⟩, ⟨.count ⟨["reviews"]⟩, .ascending⟩]⟩

end Shelf

theorem sortClause_sorts_shelf :
    ∃ type query after books sorted,
      Compiler.sortClause ⟨Shelf.schema, .default⟩ Shelf.catalog Shelf.sorting ⟨"book", "Book"⟩
        type .start = (.ok query, after) ∧
      Shelf.evaluator.runWith (.source "books" "Book") [] [] = .ok books ∧ books.length = 4 ∧
      Shelf.evaluator.runWith query [] [] = .ok sorted ∧
      StableSort
        (lexicographic ((query.orderKeys ++ [Shelf.byTitle]).map
          (OrderKey.order (OrderKey.valueOf Shelf.evaluator []))))
        books sorted := by
  obtain ⟨type, known⟩ : ∃ type, Shelf.schema.type? "books" = some type := ⟨_, rfl⟩
  obtain ⟨books, scanned, four⟩ : ∃ books,
      Shelf.evaluator.runWith (.source "books" "Book") [] [] = .ok books ∧ books.length = 4 :=
    ⟨_, rfl, by decide +kernel⟩
  obtain ⟨query, after, accepted, all⟩ : ∃ query after,
      Compiler.sortClause ⟨Shelf.schema, .default⟩ Shelf.catalog Shelf.sorting ⟨"book", "Book"⟩
        type .start = (.ok query, after) ∧
      Sortable Shelf.evaluator [] (OrderKey.valueOf Shelf.evaluator [])
        (query.orderKeys ++ [Shelf.byTitle]) books := by
    cases known
    cases scanned
    exact ⟨_, _, by with_unfolding_all rfl, .of_unmixed (by decide +kernel) (by decide +kernel)⟩
  obtain ⟨rows, listed⟩ : ∃ rows, Shelf.evaluator.runWith Shelf.catalog [] [] = .ok rows :=
    exists_eq_ok (by decide +kernel)
  have byTitle : Sortable Shelf.evaluator [] (OrderKey.valueOf Shelf.evaluator [])
      Shelf.catalog.orderKeys books := all.of_subset (List.subset_append_right _ _)
  have catalogued := byTitle.stableSort_of_runs scanned listed
  obtain ⟨_, _, _, sorts⟩ := sortClause_sorts accepted
  obtain ⟨sorted, runs, _, _, _, overall⟩ := sorts Shelf.evaluator [] _ rows listed
    ((all.of_subset (List.subset_append_left _ _)).of_perm catalogued.perm)
  exact ⟨type, query, after, books, sorted, accepted, scanned, four, runs,
    overall books scanned all⟩

end LayeredQuery
