import LayeredQuery.Proofs.Compiler.Layer
import LayeredQuery.Proofs.Evaluation.SortOrder
import LayeredQuery.Proofs.Filtering
import LayeredQuery.Proofs.Meaning.Orderly
import LayeredQuery.Proofs.Store.Session

/-!
# Compiled plans run

A layer that compiles has a plan that goes wrong in one way only, in every engine that holds strings
where strings are declared: a sort can find that its keys contradict each other. If every sort of the
layer has keys that preorder what it sorts, the plan runs to what the layer means for the stored
resources of its type. If one of them has not, there is a sorter with which the plan fails.
-/

set_option autoImplicit false

namespace LayeredQuery

namespace Compiler

variable {compiler : Compiler} {evaluator : Evaluator} {test : AttributeTest}

/-- The plan of a layer is answered with what the layer means for the stored resources. -/
theorem execute_compile (faithful : evaluator.Faithful compiler test) {layer : Layer}
    {query : Query} {type : ResourceType} (compiled : compiler.compile layer = .ok query)
    (found : compiler.schema.type? layer.type = some type)
    (resources : ∀ row ∈ compiler.schema.storedRows evaluator.store type,
      compiler.schema.Resource test type.name row) :
    evaluator.execute query = unlessDisordered (compiler.schema.answers? evaluator.sorter
      compiler.settings layer type (compiler.schema.storedRows evaluator.store type)) := by
  obtain ⟨other, found', yielded⟩ := applyLayer_of_compile compiled
  cases found.symm.trans found'
  have known := Schema.mem_of_type? found
  have source : Stage compiler evaluator test [] type [] (.source type.name type.element)
      (some (compiler.schema.storedRows evaluator.store type)) := by
    refine ⟨?_, rfl, rfl, rfl, fun rows same => Option.some.inj same ▸ resources⟩
    rw [← faithful.sameSchema]
    refine Evaluator.runWith_source ?_ []
    rw [faithful.sameSchema, faithful.coherent.type?_of_mem known]
  have answered := applyLayer_answers faithful layer _ _ _ _ _ yielded known source
  rw [← answered, Evaluator.execute, Evaluator.run, faithful.sameSchema]
  cases evaluator.runWith query [] [] <;> rfl

end Compiler

/-- What runs to the meaning of a layer runs with every sorter just when the layer is orderly, and
otherwise goes wrong as a sort does. -/
theorem Schema.runs_iff_orderly {schema : Schema} {settings : Settings} {layer : Layer}
    {type : ResourceType} {rows : List Json} {run : Sorter KeyedRow → Except RunError (List Json)}
    (answered : ∀ sorter,
      run sorter = unlessDisordered (schema.answers? sorter settings layer type rows)) :
    (∀ sorter error, run sorter = .error error → error = .disordered) ∧
      ((∀ sorter, ∃ shown, run sorter = .ok shown) ↔ schema.Orderly layer type rows) := by
  rw [schema.orderly_iff settings layer]
  exact disordered_or_ok answered

/-- After every session that leaves strings where strings are declared, a compiled plan runs without
an error but for that of a sort. It runs with every sorter just when the keys of all sorts of the
layer preorder what they sort. -/
theorem execute_isOk_iff {types : List ResourceType} {schema : Schema} {settings : Settings}
    {layer : Layer} {query : Query} {steps : List EngineStep}
    (built : Schema.build types = .ok schema)
    (compiled : Compiler.compile ⟨schema, settings⟩ layer = .ok query)
    (texts : (Engine.after schema steps).store.AttributesPass schema AttributeTest.texts) :
    ∃ type, schema.type? layer.type = some type ∧
      (∀ sorter error, (Engine.after schema steps).execute sorter query = .error error →
        error = .disordered) ∧
      ((∀ sorter, ∃ rows, (Engine.after schema steps).execute sorter query = .ok rows) ↔
        schema.Orderly layer type (schema.storedRows (Engine.after schema steps).store type)) := by
  have coherent := Schema.build_coherent built
  have tagged := Engine.Tagged.after coherent steps
  obtain ⟨type, found, _⟩ := Compiler.applyLayer_of_compile compiled
  have answered := fun sorter => (tagged.execute_eq sorter query).trans (Compiler.execute_compile
    (Evaluator.plain_faithful AttributeTest.texts_sound coherent
      (Engine.after schema steps).store sorter settings) compiled found
    (tagged.resource_of_mem_storedRows coherent texts (Schema.mem_of_type? found)))
  exact ⟨type, found, Schema.runs_iff_orderly answered⟩

namespace Shelf

def layer : Layer :=
  ⟨"books", some ⟨[("author", .empty)]⟩, some filter,
    some ⟨[⟨.count ⟨["reviews"]⟩, .descending⟩]⟩, some ⟨0, some 5⟩,
    some [.nested "reviews"
      ⟨"reviews", none, none, some ⟨[⟨.field ⟨["stars"]⟩, .descending⟩]⟩, some ⟨0, some 1⟩,
        some [.field "stars"]⟩]⟩

def settings : Settings := ⟨32, false⟩

def steps : List EngineStep :=
  [.insert "books" book, .insert "shelves" .null, .load "books"]

end Shelf

theorem execute_isOk_iff_shelf :
    ∃ query rows, Compiler.compile ⟨Shelf.schema, Shelf.settings⟩ Shelf.layer = .ok query ∧
      (Engine.after Shelf.schema Shelf.steps).execute .standard query = .ok rows := by
  have built : Schema.build Shelf.declared = .ok Shelf.schema := rfl
  obtain ⟨query, compiled⟩ : ∃ query,
      Compiler.compile ⟨Shelf.schema, Shelf.settings⟩ Shelf.layer = .ok query :=
    exists_eq_ok (by decide +kernel)
  have texts : (Engine.after Shelf.schema Shelf.steps).store.AttributesPass Shelf.schema
      AttributeTest.texts := by decide +kernel
  obtain ⟨type, found, _, runs⟩ := execute_isOk_iff built compiled texts
  have orderly : Shelf.schema.Orderly Shelf.layer type
      (Shelf.schema.storedRows (Engine.after Shelf.schema Shelf.steps).store type) := by
    cases found
    decide +kernel
  obtain ⟨rows, executed⟩ := runs.mpr orderly .standard
  exact ⟨query, rows, compiled, executed⟩

namespace Feed

def declared : List ResourceType :=
  [⟨"people", "Person", none, "id", .int,
      [⟨"name", .attribute .string false⟩, ⟨"posts", .toMany "posts"⟩]⟩,
    ⟨"comments", "Comment", none, "id", .int,
      [⟨"text", .attribute .string false⟩, ⟨"writer", .toOne "people"⟩]⟩,
    ⟨"posts", "Post", none, "id", .int,
      [⟨"published", .attribute .dateTime false⟩, ⟨"comments", .toMany "comments"⟩]⟩,
    ⟨"blogs", "Blog", none, "id", .int, [⟨"owner", .toOne "people"⟩]⟩]

def schema : Schema :=
  ⟨declared.map (Schema.withIdentity declared)⟩

def post (published : String) : Json := .ofEntries [("published", .string published)]

/-- Ten posts of one moment, ten of half an hour before in another time zone, and one without
seconds, which is before these and after those as a text. -/
def posts : List Json :=
  List.replicate 10 (post "2024-05-01T12:00:00Z")
    ++ List.replicate 10 (post "2024-05-01T13:30:00+02:00") ++ [post "2024-05-01T12:30"]

def steps : List EngineStep := posts.map (.insert "posts")

def byDate : Sorting := ⟨[⟨.field ⟨["published"]⟩, .ascending⟩]⟩

def layer : Layer := ⟨"posts", none, none, some byDate, none, none⟩

end Feed

/-- A feed of dated posts does not run: no order has all of them in their places. -/
theorem execute_disordered :
    ∃ query, Compiler.compile ⟨Feed.schema, .default⟩ Feed.layer = .ok query ∧
      (Engine.after Feed.schema Feed.steps).store.AttributesPass Feed.schema AttributeTest.texts ∧
      (Engine.after Feed.schema Feed.steps).execute .standard query = .error .disordered := by
  have failed : (Compiler.compile ⟨Feed.schema, .default⟩ Feed.layer).toOption.map (fun query =>
      ((Engine.after Feed.schema Feed.steps).execute .standard query).map fun _ => ()) =
      some (.error .disordered) := by decide +kernel
  obtain ⟨query, compiled, failed⟩ := Option.map_eq_some_iff.mp failed
  exact ⟨query, eq_ok_of_toOption compiled, by decide +kernel, eq_error_of_map failed⟩

end LayeredQuery
