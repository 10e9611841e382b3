import LayeredQuery.Evaluation.InsertionSort
import LayeredQuery.Proofs.Compiler.Predicate
import LayeredQuery.Store.Tagging

/-!
# Filters keep their meaning

A filter that compiles becomes a predicate that decides, for every tagged resource of its type,
whether the filter holds of the resource. Nothing depends on the settings, on the names of range
variables or on what the store holds; resources only need strings where strings are declared.
-/

set_option autoImplicit false

namespace LayeredQuery

/-- Whatever tagging accepts can be read as a resource of the type it was tagged for. -/
theorem Schema.Coherent.resource_of_tag {schema : Schema} (coherent : schema.Coherent)
    {test : AttributeTest} {static : String} {item row : Json}
    (tagged : schema.tag static item = .ok row) (passes : schema.attributesPass test row = true) :
    schema.Resource test static row :=
  ⟨coherent.tag_wellTagged item tagged, passes⟩

/-- A compiled filter is the source under a predicate, which decides for every tagged resource
whether the filter holds of it. -/
theorem filterClause_decides {types : List ResourceType} {schema : Schema} {settings : Settings}
    {source query : Query} {filter : Filter} {v : Variable} {name : String} {type : ResourceType}
    {before after : Context} (built : Schema.build types = .ok schema)
    (known : schema.type? name = some type)
    (accepted : Compiler.filterClause ⟨schema, settings⟩ source filter v type before =
      (.ok query, after)) :
    ∃ predicate, query = .filter source predicate ∧
      ∀ (item row : Json) (store : Store) (sorter : Sorter KeyedRow) (env : Env),
        schema.tag name item = .ok row →
        schema.attributesPass AttributeTest.texts row = true →
        (Evaluator.plain schema store sorter).apply predicate row env =
          .ok (.bool (schema.satisfies filter type row)) := by
  have coherent := Schema.build_coherent built
  obtain ⟨body, isBody, yielded⟩ := Compile.yields_bind ⟨before, after, accepted⟩
  have isQuery := Compile.yields_done yielded
  subst isQuery
  refine ⟨v.lambda body, rfl, ?_⟩
  intro item row store sorter env tagged texts
  have resource := coherent.resource_of_tag tagged texts
  rw [← Schema.name_of_type? known] at resource
  rw [Evaluator.apply_eq]
  exact Compiler.predicate_eval
    (Evaluator.plain_faithful AttributeTest.texts_sound coherent store sorter settings) filter
    _ _ _ _ _ isBody (Schema.mem_of_type? known) (Evaluator.eval_parameter v.name row) resource

/-! ## A shelf of books -/

namespace Shelf

def declared : List ResourceType :=
  [⟨"people", "Person", none, "id", .int, [⟨"name", .attribute .string false⟩]⟩,
    ⟨"authors", "Author", some "people", "id", .int, [⟨"penName", .attribute .string true⟩]⟩,
    ⟨"reviews", "Review", none, "id", .int, [⟨"stars", .attribute .int false⟩]⟩,
    ⟨"books", "Book", none, "id", .int,
      [⟨"title", .attribute .string false⟩, ⟨"author", .toOne "people"⟩,
        ⟨"reviews", .toMany "reviews"⟩]⟩]

def schema : Schema :=
  ⟨declared.map (Schema.withIdentity declared)⟩

def book : Json :=
  .ofEntries [("id", .number (.ofSize 1)), ("title", .string "Hard Times"),
    ("author", .ofEntries [("$type", .string "authors"), ("penName", .string "Boz")]),
    ("reviews", .array [.ofEntries [("stars", .number (.ofSize 2))], .null,
      .ofEntries [("stars", .number (.ofSize 4))]])]

def filter : Filter :=
  .logical .and
    [.hasWhere ⟨["reviews"]⟩
      (.compare (.constant (.int 3)) .less (.target (.field ⟨["stars"]⟩))),
    .compare (.target (.field ⟨["author", "penName"]⟩)) .equal (.constant (.string "Boz"))]

end Shelf

theorem filterClause_decides_shelf :
    ∃ type query after predicate row,
      Compiler.filterClause ⟨Shelf.schema, .default⟩ (.source "books" "Book") Shelf.filter
        ⟨"book", "Book"⟩ type .start = (.ok query, after) ∧
      query = .filter (.source "books" "Book") predicate ∧
      Shelf.schema.tag "books" Shelf.book = .ok row ∧
      ∀ store sorter env, (Evaluator.plain Shelf.schema store sorter).apply predicate row env =
        .ok (.bool true) := by
  have built : Schema.build Shelf.declared = .ok Shelf.schema := rfl
  obtain ⟨type, known⟩ : ∃ type, Shelf.schema.type? "books" = some type := ⟨_, rfl⟩
  obtain ⟨query, after, accepted⟩ : ∃ query after,
      Compiler.filterClause ⟨Shelf.schema, .default⟩ (.source "books" "Book") Shelf.filter
        ⟨"book", "Book"⟩ type .start = (.ok query, after) := by
    cases known
    exact Compile.exists_of_isOk (by decide +kernel)
  obtain ⟨row, tagged, texts, holds⟩ : ∃ row, Shelf.schema.tag "books" Shelf.book = .ok row ∧
      Shelf.schema.attributesPass AttributeTest.texts row = true ∧
      Shelf.schema.satisfies Shelf.filter type row = true := by
    cases known
    exact ⟨_, rfl, rfl, by decide +kernel⟩
  obtain ⟨predicate, isQuery, decides⟩ := filterClause_decides built known accepted
  refine ⟨type, query, after, predicate, row, accepted, isQuery, tagged, ?_⟩
  intro store sorter env
  rw [decides Shelf.book row store sorter env tagged texts, holds]

end LayeredQuery
