import LayeredQuery.Proofs.Execution
import LayeredQuery.Proofs.Store.Scan

/-!
# What a source visits

The resources of a type are read from the collections of the type and of all types below it, and
each of them is read once. Collections go by the type that a resource was inserted under, which the
type in its tag can be below. So a source visits exactly the resources that are tagged with its type
or with one below it unless one of them was inserted under a type further up.
-/

set_option autoImplicit false

namespace LayeredQuery

def Schema.isTagged (schema : Schema) (name : String) (item : Json) : Bool :=
  (Evaluator.tagged? item).any fun concrete => schema.isSameOrDerived concrete name

/-- A stored resource is tagged with the type it is stored under or with one that derives from
it. -/
theorem Schema.Storable.isTagged {schema : Schema} {type : String} {item : Json}
    (storable : schema.Storable type item) : schema.isTagged type item = true := by
  rcases Schema.wellTagged_cases storable.wellTagged with rfl | ⟨entries, concrete, rfl, found,
    derived, _⟩
  · cases storable.isObject
  · simp only [Schema.isTagged, Evaluator.tagged?, found, Option.any_some, derived]

theorem Schema.Coherent.isTagged_of_derived {schema : Schema} (coherent : schema.Coherent)
    {low high : String} {item : Json} (derived : schema.isSameOrDerived low high = true)
    (tagged : schema.isTagged low item = true) : schema.isTagged high item = true := by
  obtain ⟨concrete, found, isLow⟩ := (Option.any_eq_true _ _).mp tagged
  exact (Option.any_eq_true _ _).mpr ⟨concrete, found, coherent.isSameOrDerived_trans isLow derived⟩

/-- A source reads each resource that is stored under a type deriving from its own, once. These are
the resources tagged with such a type if and only if all of those are stored under one. -/
theorem run_source_perm {types : List ResourceType} {schema : Schema} {name : String}
    {type : ResourceType} (built : Schema.build types = .ok schema)
    (known : schema.type? name = some type) (steps : List EngineStep)
    (sorter : Sorter KeyedRow) :
    ∃ rows, (Engine.after schema steps).run sorter (.source name type.element) = .ok rows ∧
      rows.Perm ((Engine.after schema steps).store.resourcesWhere fun entry =>
        schema.isSameOrDerived entry.1 name) ∧
      (rows.Perm ((Engine.after schema steps).store.resourcesWhere fun entry =>
          schema.isTagged name entry.2) ↔
        ∀ entry ∈ (Engine.after schema steps).store.resources,
          schema.isTagged name entry.2 = true → schema.isSameOrDerived entry.1 name = true) := by
  have coherent := Schema.build_coherent built
  have tagged := Engine.Tagged.after coherent steps
  have once := Engine.keys_nodup_after schema steps
  obtain rfl := Schema.name_of_type? known
  have visited := coherent.storedRows_perm once (Schema.mem_of_type? known)
  generalize Engine.after schema steps = engine at tagged once visited ⊢
  refine ⟨schema.storedRows engine.store type, ?_, visited, ?_⟩
  · rw [Engine.run, Engine.evaluator, tagged.sameSchema, Evaluator.run]
    exact Evaluator.runWith_source known []
  · rw [visited.congr_left]
    refine Store.resourcesWhere_perm_iff fun entry member derived => ?_
    obtain ⟨items, isCollection, isItem⟩ := Store.mem_resources.mp member
    exact coherent.isTagged_of_derived derived
      (tagged.storable_of_mem once _ isCollection _ isItem).isTagged

namespace Shelf

def author : Json :=
  .ofEntries [("$type", .string "authors"), ("id", .number (.ofSize 1))]

end Shelf

theorem run_source_perm_shelf :
    ∃ rows, (Engine.after Shelf.schema
        [.insert "authors" Shelf.author, .insert "people" Shelf.author]).run .standard
          (.source "people" "Person") = .ok rows ∧
      rows.Perm ((Engine.after Shelf.schema
        [.insert "authors" Shelf.author, .insert "people" Shelf.author]).store.resourcesWhere
          fun entry => Shelf.schema.isTagged "people" entry.2) := by
  have built : Schema.build Shelf.declared = .ok Shelf.schema := rfl
  obtain ⟨type, known, sameElement⟩ : ∃ type, Shelf.schema.type? "people" = some type ∧
      type.element = "Person" := ⟨_, rfl, rfl⟩
  obtain ⟨rows, runs, _, exact⟩ := run_source_perm built known
    [.insert "authors" Shelf.author, .insert "people" Shelf.author] .standard
  refine ⟨rows, sameElement ▸ runs, exact.mpr ?_⟩
  decide +kernel

/-- An author that was inserted among the people is stored and tagged as one, but a source of
authors does not visit it. -/
theorem run_source_misses_author :
    ((Engine.after Shelf.schema [.insert "people" Shelf.author]).run .standard
        (.source "authors" "Author")).map List.length = .ok 0 ∧
      ((Engine.after Shelf.schema [.insert "people" Shelf.author]).store.resourcesWhere
        fun entry => Shelf.schema.isTagged "authors" entry.2).length = 1 := by
  decide +kernel

end LayeredQuery
