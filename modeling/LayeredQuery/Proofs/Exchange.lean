import LayeredQuery.Proofs.Compiler.Exchange
import LayeredQuery.Proofs.Filtering

/-!
# The side of an operand does not matter

A filter in which some comparisons have their operands exchanged, with the relation reversed, is
accepted exactly when the filter is. Their predicates decide the same for every tagged resource.
-/

set_option autoImplicit false

namespace LayeredQuery

/-- A filter and one with exchanged operands are both accepted or both refused, and their predicates
hold of the same tagged resources. -/
theorem filterClause_exchanged {types : List ResourceType} {schema : Schema} {name : String}
    {type : ResourceType} {filter other : Filter} (built : Schema.build types = .ok schema)
    (known : schema.type? name = some type) (exchanged : filter.Exchanged other)
    (settings : Settings) (source : Query) (v : Variable) (before : Context) :
    ((∃ query after, Compiler.filterClause ⟨schema, settings⟩ source filter v type before =
        (.ok query, after)) ↔
      ∃ query after, Compiler.filterClause ⟨schema, settings⟩ source other v type before =
        (.ok query, after)) ∧
    ∀ query query' after after',
      Compiler.filterClause ⟨schema, settings⟩ source filter v type before = (.ok query, after) →
      Compiler.filterClause ⟨schema, settings⟩ source other v type before = (.ok query', after') →
      ∃ predicate predicate', query = .filter source predicate ∧
        query' = .filter source predicate' ∧ after = after' ∧
        ∀ (item row : Json) (store : Store) (sorter : Sorter KeyedRow) (env : Env),
          schema.tag name item = .ok row →
          schema.attributesPass AttributeTest.texts row = true →
          ∃ holds,
            (Evaluator.plain schema store sorter).apply predicate row env = .ok (.bool holds) ∧
            (Evaluator.plain schema store sorter).apply predicate' row env = .ok (.bool holds) := by
  have coherent := Schema.build_coherent built
  have inStep : Compile.InStep (Compiler.filterClause ⟨schema, settings⟩ source filter v type)
      (Compiler.filterClause ⟨schema, settings⟩ source other v type) :=
    .bind_done _ _ (Compiler.predicate_exchanged exchanged _ _)
  refine ⟨inStep.accepted_iff before, ?_⟩
  intro query query' after after' accepted accepted'
  have yielded : (Compiler.filterClause ⟨schema, settings⟩ source filter v type).Yields query :=
    ⟨before, after, accepted⟩
  have yielded' : (Compiler.filterClause ⟨schema, settings⟩ source other v type).Yields query' :=
    ⟨before, after', accepted'⟩
  obtain ⟨predicate, isQuery, decides⟩ :=
    Compiler.filterClause_eval yielded (Schema.mem_of_type? known)
  obtain ⟨predicate', isQuery', decides'⟩ :=
    Compiler.filterClause_eval yielded' (Schema.mem_of_type? known)
  have together := inStep before
  rw [Compile.outcome?_eq_some.mpr accepted, Compile.outcome?_eq_some.mpr accepted'] at together
  refine ⟨predicate, predicate', isQuery, isQuery', Option.some.inj together, ?_⟩
  intro item row store sorter env tagged texts
  have faithful := Evaluator.plain_faithful AttributeTest.texts_sound coherent store sorter settings
  have resource := coherent.resource_of_tag tagged texts
  rw [← Schema.name_of_type? known] at resource
  have same := decides' faithful row env resource
  rw [← Schema.satisfies_exchanged exchanged] at same
  exact ⟨_, decides faithful row env resource, same⟩

namespace Shelf

def laterTitles : Filter :=
  .logical .and
    [.hasWhere ⟨["reviews"]⟩
      (.compare (.constant (.int 3)) .less (.target (.field ⟨["stars"]⟩))),
    .not (.compare (.target (.field ⟨["title"]⟩)) .lessOrEqual
      (.target (.field ⟨["author", "penName"]⟩)))]

def earlierNames : Filter :=
  .logical .and
    [.hasWhere ⟨["reviews"]⟩
      (.compare (.target (.field ⟨["stars"]⟩)) .greater (.constant (.int 3))),
    .not (.compare (.target (.field ⟨["author", "penName"]⟩)) .greaterOrEqual
      (.target (.field ⟨["title"]⟩)))]

end Shelf

theorem filterClause_exchanged_shelf :
    Shelf.laterTitles.Exchanged Shelf.earlierNames ∧
      ∃ type query query' after after' predicate predicate' row,
        Compiler.filterClause ⟨Shelf.schema, .default⟩ (.source "books" "Book") Shelf.laterTitles
          ⟨"book", "Book"⟩ type .start = (.ok query, after) ∧
        Compiler.filterClause ⟨Shelf.schema, .default⟩ (.source "books" "Book") Shelf.earlierNames
          ⟨"book", "Book"⟩ type .start = (.ok query', after') ∧
        query = .filter (.source "books" "Book") predicate ∧
        query' = .filter (.source "books" "Book") predicate' ∧
        Shelf.schema.tag "books" Shelf.book = .ok row ∧
        ∀ store sorter env, ∃ holds,
          (Evaluator.plain Shelf.schema store sorter).apply predicate row env = .ok (.bool holds) ∧
          (Evaluator.plain Shelf.schema store sorter).apply predicate' row env =
            .ok (.bool holds) := by
  have built : Schema.build Shelf.declared = .ok Shelf.schema := rfl
  have exchanged : Shelf.laterTitles.Exchanged Shelf.earlierNames :=
    .logical .and (.cons (.hasWhere _ (.operands _ _ _)) (.cons (.not (.operands _ _ _)) .nil))
  obtain ⟨type, known⟩ : ∃ type, Shelf.schema.type? "books" = some type := ⟨_, rfl⟩
  obtain ⟨row, tagged, texts⟩ : ∃ row, Shelf.schema.tag "books" Shelf.book = .ok row ∧
      Shelf.schema.attributesPass AttributeTest.texts row = true := ⟨_, rfl, rfl⟩
  obtain ⟨accepts, decides⟩ := filterClause_exchanged built known exchanged .default
    (.source "books" "Book") ⟨"book", "Book"⟩ .start
  obtain ⟨query, after, accepted⟩ : ∃ query after,
      Compiler.filterClause ⟨Shelf.schema, .default⟩ (.source "books" "Book") Shelf.laterTitles
        ⟨"book", "Book"⟩ type .start = (.ok query, after) := by
    cases known
    exact Compile.exists_of_isOk (by decide +kernel)
  obtain ⟨query', after', accepted'⟩ := accepts.mp ⟨query, after, accepted⟩
  obtain ⟨predicate, predicate', isQuery, isQuery', _, same⟩ :=
    decides query query' after after' accepted accepted'
  exact ⟨exchanged, type, query, query', after, after', predicate, predicate', row, accepted,
    accepted', isQuery, isQuery', tagged,
    fun store sorter env => same Shelf.book row store sorter env tagged texts⟩

end LayeredQuery
