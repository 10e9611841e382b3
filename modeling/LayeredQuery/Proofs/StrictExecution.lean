import LayeredQuery.Proofs.Evaluation.Strict
import LayeredQuery.Proofs.Execution

/-!
# Compiled plans run strictly

The type checks of a compiler leave nothing to the falling back of comparisons: where attributes
have the kinds of their declared types, the plan of a layer gives the same answer when every
comparison that would fall back is an error.
-/

set_option autoImplicit false

namespace LayeredQuery

/-- A compiled plan runs strictly to what it runs to otherwise, after every session that leaves
attributes of the kinds they are declared with. So it fails as a sort does or not at all, and it does
not fail with any sorter just when the keys of all sorts of the layer preorder what they sort. -/
theorem strict_execute_eq {types : List ResourceType} {schema : Schema} {settings : Settings}
    {layer : Layer} {query : Query} {steps : List EngineStep}
    (built : Schema.build types = .ok schema)
    (compiled : Compiler.compile ⟨schema, settings⟩ layer = .ok query)
    (typed : (Engine.after schema steps).store.AttributesPass schema AttributeTest.typed) :
    ∃ type, schema.type? layer.type = some type ∧
      (∀ sorter, (Evaluator.strict schema (Engine.after schema steps).store sorter).execute query =
        (Engine.after schema steps).execute sorter query) ∧
      (∀ sorter error,
        (Evaluator.strict schema (Engine.after schema steps).store sorter).execute query =
          .error error → error = .disordered) ∧
      ((∀ sorter, ∃ rows,
          (Evaluator.strict schema (Engine.after schema steps).store sorter).execute query =
            .ok rows) ↔
        schema.Orderly layer type (schema.storedRows (Engine.after schema steps).store type)) := by
  have coherent := Schema.build_coherent built
  have tagged := Engine.Tagged.after coherent steps
  obtain ⟨type, found, _⟩ := Compiler.applyLayer_of_compile compiled
  have resources :=
    tagged.resource_of_mem_storedRows coherent typed (Schema.mem_of_type? found)
  have strictly := fun sorter => Compiler.execute_compile
    (Evaluator.strict_faithful coherent (Engine.after schema steps).store sorter settings) compiled
    found resources
  have plainly := fun sorter => (tagged.execute_eq sorter query).trans (Compiler.execute_compile
    (Evaluator.plain_faithful AttributeTest.typed_sound coherent
      (Engine.after schema steps).store sorter settings) compiled found resources)
  exact ⟨type, found, fun sorter => (strictly sorter).trans (plainly sorter).symm,
    Schema.runs_iff_orderly strictly⟩

theorem strict_execute_eq_shelf :
    ∃ query rows, Compiler.compile ⟨Shelf.schema, Shelf.settings⟩ Shelf.layer = .ok query ∧
      (Evaluator.strict Shelf.schema (Engine.after Shelf.schema Shelf.steps).store
        .standard).execute query = .ok rows ∧
      (Engine.after Shelf.schema Shelf.steps).execute .standard query = .ok rows := by
  have built : Schema.build Shelf.declared = .ok Shelf.schema := rfl
  obtain ⟨query, compiled⟩ : ∃ query,
      Compiler.compile ⟨Shelf.schema, Shelf.settings⟩ Shelf.layer = .ok query :=
    exists_eq_ok (by decide +kernel)
  have typed : (Engine.after Shelf.schema Shelf.steps).store.AttributesPass Shelf.schema
      AttributeTest.typed := by decide +kernel
  obtain ⟨type, found, same, _, runs⟩ := strict_execute_eq built compiled typed
  have orderly : Shelf.schema.Orderly Shelf.layer type
      (Shelf.schema.storedRows (Engine.after Shelf.schema Shelf.steps).store type) := by
    cases found
    decide +kernel
  obtain ⟨rows, strictly⟩ := runs.mpr orderly .standard
  exact ⟨query, rows, compiled, strictly, (same .standard).symm.trans strictly⟩

/-- The dates of the feed are all strings, and still there is no answer. -/
theorem strict_execute_disordered :
    ∃ query, Compiler.compile ⟨Feed.schema, .default⟩ Feed.layer = .ok query ∧
      (Engine.after Feed.schema Feed.steps).store.AttributesPass Feed.schema AttributeTest.typed ∧
      (Evaluator.strict Feed.schema (Engine.after Feed.schema Feed.steps).store
        .standard).execute query = .error .disordered := by
  have failed : (Compiler.compile ⟨Feed.schema, .default⟩ Feed.layer).toOption.map (fun query =>
      ((Evaluator.strict Feed.schema (Engine.after Feed.schema Feed.steps).store
        .standard).execute query).map fun _ => ()) = some (.error .disordered) := by decide +kernel
  obtain ⟨query, compiled, failed⟩ := Option.map_eq_some_iff.mp failed
  exact ⟨query, eq_ok_of_toOption compiled, by decide +kernel, eq_error_of_map failed⟩

end LayeredQuery
