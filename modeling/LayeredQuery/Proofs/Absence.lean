import LayeredQuery.Proofs.Execution

/-!
# Constants and missing values

A value that is missing is null, and so is what its field leads to from a relationship without a
resource. No relation but inequality holds between null and a constant, as long as the constant is
not written as null itself. Null is, and so are the two infinite floats, for which there is no
number: a filter that asks for one of them keeps the resources that have no value.
-/

set_option autoImplicit false

namespace LayeredQuery

/-! ## Constants that are written as null -/

namespace Literal

def isInfinite : Literal → Bool
  | .float (.infinite _) => true
  | _ => false

theorem isNull_toJson {literal : Literal} (nonNull : literal ≠ .null) :
    literal.toJson.isNull = literal.isInfinite := by
  cases literal with
  | null => exact absurd rfl nonNull
  | float value => cases value <;> rfl
  | _ => rfl

end Literal

/-- Of the relations that null is in to a value, inequality aside, there is only the equality of
null and null. -/
theorem Relation.null_holds {relation : Relation} (keeps : relation ≠ .notEqual) (value : Json) :
    relation.holds .null value = (relation == .equal && value.isNull) := by
  cases relation with
  | notEqual => exact absurd rfl keeps
  | equal => cases value <;> rfl
  | _ => rfl

/-! ## Filters with constants -/

/-- The filters that ask whether an end of a chain is in a relation to one of some constants. -/
inductive Filter.Asks (chain : Chain) : Filter → Relation → List Literal → Prop
  | compare (relation : Relation) (literal : Literal) :
    Asks chain (.compare (.target (.field chain)) relation (.constant literal)) relation [literal]
  | reversed (relation : Relation) (literal : Literal) :
    Asks chain (.compare (.constant literal) relation (.target (.field chain))) relation.reversed
      [literal]
  | oneOf (literals : List Literal) : Asks chain (.oneOf chain literals) .equal literals

namespace Filter.Asks

variable {chain : Chain} {filter : Filter} {relation : Relation} {literals : List Literal}

theorem satisfies_eq (asks : filter.Asks chain relation literals) (schema : Schema)
    (owner : ResourceType) (value : Json) :
    schema.satisfies filter owner value = (schema.ends chain.names owner value).any fun found =>
      literals.any fun literal => relation.holds found.2 literal.toJson := by
  cases asks with
  | compare relation literal =>
    simp [Schema.satisfies, Schema.relates, Schema.operandValues, Function.comp_def]
  | reversed relation literal =>
    simp [Schema.satisfies, Schema.relates, Schema.operandValues, Function.comp_def,
      Relation.reversed_holds]
  | oneOf => rfl

theorem satisfies_null (asks : filter.Asks chain relation literals) (keeps : relation ≠ .notEqual)
    (nonNull : ∀ literal ∈ literals, literal ≠ .null) {schema : Schema} {owner : ResourceType}
    {value : Json} (missing : ∀ found ∈ schema.ends chain.names owner value, found.2 = .null) :
    schema.satisfies filter owner value = true ↔ schema.ends chain.names owner value ≠ [] ∧
      relation = .equal ∧ ∃ literal ∈ literals, literal.isInfinite = true := by
  have holds : ∀ found ∈ schema.ends chain.names owner value, ∀ literal ∈ literals,
      relation.holds found.2 literal.toJson = (relation == .equal && literal.isInfinite) := by
    intro found isEnd literal member
    rw [missing found isEnd, Relation.null_holds keeps, Literal.isNull_toJson (nonNull _ member)]
  rw [asks.satisfies_eq, List.any_eq_true]
  constructor
  · rintro ⟨found, isEnd, related⟩
    obtain ⟨literal, member, related⟩ := List.any_eq_true.mp related
    rw [holds found isEnd literal member, Bool.and_eq_true, beq_iff_eq] at related
    exact ⟨List.ne_nil_of_mem isEnd, related.1, literal, member, related.2⟩
  · rintro ⟨someEnd, rfl, literal, member, infinite⟩
    obtain ⟨found, isEnd⟩ := List.exists_mem_of_ne_nil _ someEnd
    refine ⟨found, isEnd, List.any_eq_true.mpr ⟨literal, member, ?_⟩⟩
    rw [holds found isEnd literal member, infinite]
    rfl

theorem predicate_eval (asks : filter.Asks chain relation literals) {compiler : Compiler}
    {evaluator : Evaluator} {test : AttributeTest} (compares : evaluator.Compares compiler test) :
    compiler.DenotesCondition evaluator test
      (fun current owner => compiler.predicate filter current owner)
      (compiler.schema.satisfies filter) := by
  cases asks with
  | compare relation literal => exact Compiler.compare_eval compares _ relation _
  | reversed relation literal => exact Compiler.compare_eval compares _ relation _
  | oneOf => exact Compiler.oneOf_eval compares chain literals

end Filter.Asks

/-- A filter that asks for a constant decides every tagged resource without a value, whatever the
other values in it are. It keeps none of them unless it asks for an infinite float. -/
theorem filterClause_decides_missing {types : List ResourceType} {schema : Schema}
    {settings : Settings} {source query : Query} {filter : Filter} {chain : Chain}
    {relation : Relation} {literals : List Literal} {v : Variable} {name : String}
    {type : ResourceType} {before after : Context} (built : Schema.build types = .ok schema)
    (known : schema.type? name = some type) (asks : filter.Asks chain relation literals)
    (keeps : relation ≠ .notEqual) (nonNull : ∀ literal ∈ literals, literal ≠ .null)
    (accepted : Compiler.filterClause ⟨schema, settings⟩ source filter v type before =
      (.ok query, after)) :
    ∃ predicate, query = .filter source predicate ∧
      ∀ (item row : Json) (store : Store) (sorter : Sorter KeyedRow) (env : Env),
        schema.tag name item = .ok row →
        (∀ found ∈ schema.ends chain.names type row, found.2 = .null) →
        ∃ kept, (Evaluator.plain schema store sorter).apply predicate row env = .ok (.bool kept) ∧
          (kept = true ↔ schema.ends chain.names type row ≠ [] ∧
            relation = .equal ∧ ∃ literal ∈ literals, literal.isInfinite = true) := by
  have coherent := Schema.build_coherent built
  obtain ⟨body, isBody, yielded⟩ := Compile.yields_bind ⟨before, after, accepted⟩
  have isQuery := Compile.yields_done yielded
  subst isQuery
  refine ⟨v.lambda body, rfl, ?_⟩
  intro item row store sorter env tagged missing
  refine ⟨schema.satisfies filter type row, ?_, asks.satisfies_null keeps nonNull missing⟩
  have resource := coherent.resource_of_tag tagged (schema.attributesPass_any row)
  rw [← Schema.name_of_type? known] at resource
  rw [Evaluator.apply_eq]
  exact asks.predicate_eval
    (Evaluator.plain_compares AttributeTest.any_permissive coherent store sorter settings)
    _ _ _ _ _ isBody (Schema.mem_of_type? known) (Evaluator.eval_parameter v.name row) resource

/-! ## Orders of products -/

namespace Sales

def declared : List ResourceType :=
  [⟨"products", "Product", none, "id", .int, [⟨"price", .attribute .float true⟩]⟩,
    ⟨"orders", "Order", none, "id", .int, [⟨"product", .toOne "products"⟩]⟩]

def schema : Schema :=
  ⟨declared.map (Schema.withIdentity declared)⟩

def order : Json :=
  .ofEntries [("id", .number (.ofSize 1)), ("product", .ofEntries [("price", .null)])]

def priced (literal : Literal) : Filter :=
  .compare (.constant literal) .equal (.target (.field ⟨["product", "price"]⟩))

end Sales

theorem filterClause_decides_missing_price :
    ∃ type query after predicate row,
      Compiler.filterClause ⟨Sales.schema, .default⟩ (.source "orders" "Order")
        (Sales.priced (.float (.finite (.zero false)))) ⟨"order", "Order"⟩ type .start =
          (.ok query, after) ∧
      query = .filter (.source "orders" "Order") predicate ∧
      Sales.schema.tag "orders" Sales.order = .ok row ∧
      ∀ store sorter env, (Evaluator.plain Sales.schema store sorter).apply predicate row env =
        .ok (.bool false) := by
  have built : Schema.build Sales.declared = .ok Sales.schema := rfl
  obtain ⟨type, known⟩ : ∃ type, Sales.schema.type? "orders" = some type := ⟨_, rfl⟩
  obtain ⟨query, after, accepted⟩ : ∃ query after,
      Compiler.filterClause ⟨Sales.schema, .default⟩ (.source "orders" "Order")
        (Sales.priced (.float (.finite (.zero false)))) ⟨"order", "Order"⟩ type .start =
          (.ok query, after) := by
    cases known
    exact Compile.exists_of_isOk (by decide +kernel)
  obtain ⟨row, resolved, tagged, ends⟩ : ∃ row resolved,
      Sales.schema.tag "orders" Sales.order = .ok row ∧
      Sales.schema.ends ["product", "price"] type row = [(resolved, .null)] := by
    cases known
    exact ⟨_, _, rfl, rfl⟩
  obtain ⟨predicate, isQuery, decides⟩ := filterClause_decides_missing built known
    (.reversed .equal (.float (.finite (.zero false)))) nofun (by simp) accepted
  refine ⟨type, query, after, predicate, row, accepted, isQuery, tagged, fun store sorter env => ?_⟩
  obtain ⟨kept, applied, iff⟩ := decides Sales.order row store sorter env tagged (by simp [ends])
  cases kept with
  | false => exact applied
  | true => simp [Literal.isInfinite] at iff

/-- It is found among the orders of products with an infinite price. -/
theorem run_keeps_missing_price :
    ((Compiler.compile ⟨Sales.schema, .default⟩
        ⟨"orders", none, some (Sales.priced (.float (.infinite false))), none, none, none⟩).toOption
      |>.bind fun query =>
        ((Engine.after Sales.schema [.insert "orders" Sales.order]).run .standard
          query).toOption).map
          (List.map fun row => (row.member "product" |>.member "price").isNull) = some [true] := by
  decide +kernel

end LayeredQuery
