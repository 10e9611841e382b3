import LayeredQuery.Proofs.Evaluation.Rules

/-!
# Faithful evaluators

An evaluator with the schema of a compiler can read a field that was resolved on a type from every
resource of that type, and the field has the value it stands for. The comparisons that a compiler
lets through are those of values whose types fit. An evaluator that decides all of these the usual
way, for resources whose attributes pass a test, is faithful to the compiler when the test also makes
sure of the texts that filters search.
-/

set_option autoImplicit false

namespace LayeredQuery

/-- A test that lets null and the values of constants and counts pass. -/
structure AttributeTest.Permissive (test : AttributeTest) : Prop where
  nullPasses : ∀ type, test type .null = true
  literalPasses : ∀ (literal : Literal) type, literal.type? = some type →
    test type literal.toJson = true
  countPasses : ∀ count, test .int (.number (.ofSize count)) = true

/-- A permissive test that makes sure of texts where strings are declared. -/
structure AttributeTest.Sound (test : AttributeTest) : Prop extends test.Permissive where
  textPasses : ∀ value, test .string value = true → value = .null ∨ ∃ text, value = .string text

namespace Evaluator

structure Reads (evaluator : Evaluator) (compiler : Compiler) (test : AttributeTest) : Prop where
  nullPasses : ∀ type, test type .null = true
  sameSchema : evaluator.schema = compiler.schema
  coherent : compiler.schema.Coherent

/-- An evaluator that decides every comparison that the type checks of a compiler let through, where
attributes pass a test. -/
structure Compares (evaluator : Evaluator) (compiler : Compiler) (test : AttributeTest) : Prop
    extends test.Permissive, evaluator.Reads compiler test where
  decidesNull : ∀ relation value, evaluator.holds relation value .null =
    .ok (relation.holds value .null)
  decidesNullLeft : ∀ relation value, evaluator.holds relation .null value =
    .ok (relation.holds .null value)
  decides : ∀ {relation : Relation} {type other : ValueType} {x y : Json},
    test type x = true → test other y = true →
    (type.accepts other || other.accepts type) = true →
    (relation.isOrdering = true → type.isOrderable = true) →
    evaluator.holds relation x y = .ok (relation.holds x y)

/-- An evaluator that decides these comparisons, where the test also makes sure of texts. -/
structure Faithful (evaluator : Evaluator) (compiler : Compiler) (test : AttributeTest) : Prop
    extends evaluator.Compares compiler test where
  textPasses : ∀ value, test .string value = true → value = .null ∨ ∃ text, value = .string text

end Evaluator

/-! ## Shapes of values -/

namespace Schema

variable {schema : Schema} {test : AttributeTest}

theorem Resource.readable {static : String} {value : Json}
    (resource : schema.Resource test static value) :
    value = .null ∨ ∃ entries, value = .object entries := by
  rcases resource.cases_value with isNull | ⟨entries, _, isObject, _⟩
  · exact .inl isNull
  · exact .inr ⟨entries, isObject⟩

theorem Holds.related {target : String} {value : Json}
    (held : schema.Holds test (.toMany target) value) :
    (value = .null ∨ ∃ items, value = .array items) ∧
      ∀ item ∈ value.related, schema.Resource test target item := by
  rcases held with rfl | ⟨items, rfl, each⟩
  · exact ⟨.inl rfl, fun item member => by cases member⟩
  · exact ⟨.inr ⟨items, rfl⟩, each⟩

end Schema

namespace Evaluator.Reads

variable {evaluator : Evaluator} {compiler : Compiler} {test : AttributeTest} {env : Env}

theorem isInstance_eq (reads : evaluator.Reads compiler test) {type : ResourceType}
    (value : Json) (known : type ∈ compiler.schema.types) :
    evaluator.isInstance type.element value =
      .ok (compiler.schema.isInstance type.name value) := by
  have same := reads.sameSchema
  have coherent := reads.coherent
  rw [← same] at known coherent ⊢
  exact Evaluator.isInstance_eq coherent value known

theorem eval_access (reads : evaluator.Reads compiler test) {owner : ResourceType}
    {name : String} {resolved : ResolvedField} {current : Expr} {value : Json}
    (known : owner ∈ compiler.schema.types)
    (found : compiler.schema.fieldOn? owner name = some resolved)
    (evaluated : evaluator.eval current env = .ok value)
    (resource : compiler.schema.Resource test owner.name value) :
    evaluator.eval (resolved.access current) env = .ok (compiler.schema.read resolved value) := by
  have declaringKnown := (reads.coherent.fieldOn?_spec known found).1
  exact Evaluator.eval_access (reads.isInstance_eq value declaringKnown) evaluated resource.readable

/-- What the access to a resolved field evaluates to is what such a field can hold. -/
theorem eval_access_holds (reads : evaluator.Reads compiler test) {owner : ResourceType}
    {name : String} {resolved : ResolvedField} {current : Expr} {value : Json}
    (known : owner ∈ compiler.schema.types)
    (found : compiler.schema.fieldOn? owner name = some resolved)
    (evaluated : evaluator.eval current env = .ok value)
    (resource : compiler.schema.Resource test owner.name value) :
    evaluator.eval (resolved.access current) env = .ok (compiler.schema.read resolved value) ∧
      compiler.schema.Holds test resolved.kind (compiler.schema.read resolved value) :=
  ⟨reads.eval_access known found evaluated resource,
    reads.coherent.holds_read reads.nullPasses known found resource⟩

end Evaluator.Reads

/-! ## The plain evaluator -/

def AttributeTest.any : AttributeTest :=
  fun _ _ => true

theorem AttributeTest.any_permissive : AttributeTest.any.Permissive :=
  ⟨fun _ => rfl, fun _ _ _ => rfl, fun _ => rfl⟩

namespace Schema

mutual

theorem attributesPass_any (schema : Schema) :
    ∀ value : Json, schema.attributesPass AttributeTest.any value = true
  | .object entries => by
    rw [attributesPass]
    split
    · exact attributesPassIn_any schema _ entries
    · rfl
  | .array items => by
    rw [attributesPass]
    exact attributesPassItems_any schema items
  | .null => rfl
  | .bool _ => rfl
  | .number _ => rfl
  | .string _ => rfl

theorem attributesPassItems_any (schema : Schema) :
    ∀ items : List Json, schema.attributesPassItems AttributeTest.any items = true
  | [] => rfl
  | item :: rest => by
    rw [attributesPassItems, attributesPass_any schema item, attributesPassItems_any schema rest]
    rfl

theorem attributesPassIn_any (schema : Schema) (concrete : String) :
    ∀ entries : List (String × Json),
      schema.attributesPassIn AttributeTest.any concrete entries = true
  | [] => rfl
  | (name, value) :: rest => by
    rw [attributesPassIn, attributesPassIn_any schema concrete rest,
      attributesPass_any schema value]
    cases schema.field? concrete name with
    | none => rfl
    | some field =>
      obtain ⟨_, kind⟩ := field
      cases kind <;> rfl

end

end Schema

/-- The test that attributes declared as strings hold strings or null. -/
def AttributeTest.texts : AttributeTest
  | .string, .string _ => true
  | .string, .null => true
  | .string, _ => false
  | _, _ => true

theorem AttributeTest.texts_sound : AttributeTest.texts.Sound where
  nullPasses type := by cases type <;> rfl
  textPasses value passed := by
    cases value with
    | null => exact .inl rfl
    | string text => exact .inr ⟨text, rfl⟩
    | _ => cases passed
  literalPasses literal type typed := by
    cases literal <;> cases typed <;> rfl
  countPasses _ := rfl

theorem Evaluator.plain_compares {schema : Schema} {test : AttributeTest}
    (permissive : test.Permissive) (coherent : schema.Coherent) (store : Store)
    (sorter : Sorter KeyedRow) (settings : Settings) :
    (Evaluator.plain schema store sorter).Compares ⟨schema, settings⟩ test where
  toPermissive := permissive
  sameSchema := rfl
  coherent := coherent
  decidesNull _ _ := rfl
  decidesNullLeft _ _ := rfl
  decides _ _ _ _ := rfl

theorem Evaluator.plain_faithful {schema : Schema} {test : AttributeTest} (sound : test.Sound)
    (coherent : schema.Coherent) (store : Store) (sorter : Sorter KeyedRow) (settings : Settings) :
    (Evaluator.plain schema store sorter).Faithful ⟨schema, settings⟩ test where
  toCompares := plain_compares sound.toPermissive coherent store sorter settings
  textPasses := sound.textPasses

end LayeredQuery
