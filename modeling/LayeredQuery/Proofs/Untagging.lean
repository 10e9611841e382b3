import LayeredQuery.Proofs.Compiler.Choosing
import LayeredQuery.Proofs.Evaluation.Untagged
import LayeredQuery.Proofs.Execution

/-!
# Type tags leave with projections

Rows that a projection makes are untagged through and through when they are answered. Rows that no
projection makes are stored resources in their shape, which takes the tag off each resource but does
not look into the values of attributes and of names that are no field. There a tag stays, if the
resource came with one.
-/

set_option autoImplicit false

namespace LayeredQuery

theorem Layer.projection_of_no_selections {layer : Layer} (unprojected : layer.selections? = none)
    (compiler : Compiler) : compiler.projectionBody layer.projection = none := by
  unfold Layer.selections? at unprojected
  split at unprojected
  · rename_i absent
    rw [absent, Compiler.projectionBody]
  · rename_i empty
    rw [empty, Compiler.projectionBody, List.isEmpty_nil, if_pos rfl]
  · cases unprojected

theorem Layer.included_leafTree (layer : Layer) :
    layer.included.leafTree = Schema.shownTree layer.tree := by
  unfold Layer.included
  cases layer.tree <;> rfl

theorem Evaluator.tagFree_of_select {evaluator : Evaluator} {input : Query} {selector : Lambda}
    {rows : List Json} (executed : evaluator.execute (.select input selector) = .ok rows) :
    ∀ row ∈ rows, row.tagFree = true := by
  rw [execute] at executed
  cases ran : evaluator.run (.select input selector) with
  | error _ => simp [ran] at executed
  | ok made =>
    simp only [ran, Query.answer, Query.isProjected, if_true, Except.ok.injEq] at executed
    subst executed
    exact List.forall_mem_map.mpr fun row _ => Json.tagFree_untag row

/-- After every session the answer to a layer with a projection has no type tag in it. Without a
projection the answer is made of stored resources of the type of the layer, in the shape that the
include tree gives them, and such a shape has no type tag in it just when no value has one that the
shape keeps from the attributes and undeclared names of the resources shown. -/
theorem execute_untagged {types : List ResourceType} {schema : Schema} {settings : Settings}
    {layer : Layer} {query : Query} {steps : List EngineStep} {sorter : Sorter KeyedRow}
    {rows : List Json}
    (built : Schema.build types = .ok schema)
    (compiled : Compiler.compile ⟨schema, settings⟩ layer = .ok query)
    (executed : (Engine.after schema steps).execute sorter query = .ok rows) :
    (layer.selections?.isSome = true → ∀ row ∈ rows, row.tagFree = true) ∧
    (layer.selections? = none → ∃ type chosen, schema.type? layer.type = some type ∧
      chosen ⊆ schema.storedRows (Engine.after schema steps).store type ∧
      rows = chosen.map (schema.shape type.name (Schema.shownTree layer.tree)) ∧
      ∀ row ∈ chosen,
        ((schema.shape type.name (Schema.shownTree layer.tree) row).tagFree = true ↔
          ∀ kept, schema.Keeps (Schema.shownTree layer.tree) row kept → kept.tagFree = true)) := by
  have coherent := Schema.build_coherent built
  have tagged := Engine.Tagged.after coherent steps
  obtain ⟨type, found, yielded⟩ := Compiler.applyLayer_of_compile compiled
  have known := Schema.mem_of_type? found
  obtain ⟨paged, prepares, ends⟩ := Compiler.applyLayer_cases yielded
  rw [tagged.execute_eq] at executed
  constructor
  · intro projected
    obtain ⟨selections, isSelections⟩ := Option.isSome_iff_exists.mp projected
    obtain ⟨isProjection, nonempty⟩ := Layer.projection_of_selections? isSelections
    rw [isProjection, Compiler.projectionBody_some nonempty] at ends
    rcases ends with ⟨isNone, _⟩ | ⟨_, _, _, _, _, rfl⟩
    · cases isNone
    · exact Evaluator.tagFree_of_select executed
  · intro unprojected
    rw [Layer.projection_of_no_selections unprojected] at ends
    rcases ends with ⟨_, rfl⟩ | ⟨_, _, _, isSome, _⟩
    · have loads : Include.ofChains (query.paths.map Chain.ofText) =
          .ok (Schema.shownTree layer.tree) := by
        rw [prepares.chains coherent known (by rw [Query.paths]), Include.ofChains_toChains,
          Layer.included_leafTree]
      obtain ⟨chosen, stored, isAnswer⟩ :=
        Compiler.execute_of_leadsTo coherent known prepares.leadsTo loads executed
      have anything : (Engine.after schema steps).store.AttributesPass schema AttributeTest.any :=
        fun _ _ item _ => Schema.attributesPass_any schema item
      refine ⟨type, chosen, found, stored, isAnswer, fun row member => ?_⟩
      have resource := tagged.resource_of_mem_storedRows coherent anything known row (stored member)
      exact coherent.tagFree_shape row resource.tagged
    · cases isSome

namespace Shelf

def portrayed : List EngineStep :=
  [.insert "books" (.ofEntries [("title", .string "Hard Times"),
    ("author", .ofEntries [("penName", .string "Boz"), ("$type", .string "authors"),
      ("portrait", .ofEntries [("$type", .string "pictures"), ("year", .number (.ofSize 1839))])])])]

def authorsOnly : Layer :=
  ⟨"books", none, none, none, none, some [.field "author"]⟩

def withAuthors : Layer :=
  ⟨"books", some ⟨[("author", .empty)]⟩, none, none, none, none⟩

def answer? (layer : Layer) : Option (List Json) :=
  (Compiler.compile ⟨schema, settings⟩ layer).toOption.bind fun query =>
    ((Engine.after schema portrayed).execute .standard query).toOption

theorem exists_of_answer? {layer : Layer} {rows : List Json} (answered : answer? layer = some rows) :
    ∃ query, Compiler.compile ⟨schema, settings⟩ layer = .ok query ∧
      (Engine.after schema portrayed).execute .standard query = .ok rows := by
  obtain ⟨query, compiled, executed⟩ := Option.bind_eq_some_iff.mp answered
  exact ⟨query, eq_ok_of_toOption compiled, eq_ok_of_toOption executed⟩

end Shelf

theorem execute_untagged_authors :
    ∃ query rows, Compiler.compile ⟨Shelf.schema, Shelf.settings⟩ Shelf.authorsOnly = .ok query ∧
      (Engine.after Shelf.schema Shelf.portrayed).execute .standard query = .ok rows ∧
      rows.length = 1 ∧
      ∀ row ∈ rows, row.tagFree = true := by
  have built : Schema.build Shelf.declared = .ok Shelf.schema := rfl
  have counted : (Shelf.answer? Shelf.authorsOnly).map List.length = some 1 := by decide +kernel
  obtain ⟨rows, answered, size⟩ := Option.map_eq_some_iff.mp counted
  obtain ⟨query, compiled, executed⟩ := Shelf.exists_of_answer? answered
  exact ⟨query, rows, compiled, executed, size, (execute_untagged built compiled executed).1 rfl⟩

/-- The portrait of the author is answered with its tag when the books are shown with it. -/
theorem execute_keeps_tag :
    ∃ query rows, Compiler.compile ⟨Shelf.schema, Shelf.settings⟩ Shelf.withAuthors = .ok query ∧
      (Engine.after Shelf.schema Shelf.portrayed).execute .standard query = .ok rows ∧
      ∃ row ∈ rows, row.tagFree = false := by
  have tagged : (Shelf.answer? Shelf.withAuthors).map (List.any · fun row => !row.tagFree) =
      some true := by decide +kernel
  obtain ⟨rows, answered, tagged⟩ := Option.map_eq_some_iff.mp tagged
  obtain ⟨query, compiled, executed⟩ := Shelf.exists_of_answer? answered
  obtain ⟨row, member, tagged⟩ := List.any_eq_true.mp tagged
  exact ⟨query, rows, compiled, executed, row, member, Bool.not_eq_true' _ ▸ tagged⟩

end LayeredQuery
