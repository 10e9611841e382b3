import Mathlib.Data.List.Nodup
import LayeredQuery.Proofs.Store.Parts
import LayeredQuery.Proofs.Store.Resource

/-!
# Sessions of an engine

A session inserts resources and loads documents, in any order and with any success, starting from an
empty store. Whatever happens in it, the engine keeps its schema, and all that is stored under a
type is an object that is well tagged for that type.
-/

set_option autoImplicit false

namespace LayeredQuery

inductive EngineStep
  | insert (type : String) (item : Json)
  | load (text : String)

namespace Engine

/-- The engine after a step. A resource that is refused is not stored, and loading keeps what it
stored before its fault. -/
def step (engine : Engine) : EngineStep → Engine
  | .insert type item =>
    match engine.insert type item with
    | .ok next => next
    | .error _ => engine
  | .load text => (engine.load text).engine

def after (schema : Schema) (steps : List EngineStep) : Engine :=
  steps.foldl step (ofSchema schema)

end Engine

/-! ## What sessions keep -/

namespace Engine

/-- What every accepted resource leaves true of an engine. -/
def Kept (P : Engine → Prop) : Prop :=
  ∀ engine type item next, P engine → engine.insert type item = .ok next → P next

variable {P : Engine → Prop}

theorem loadAll_kept (kept : Kept P) {parts : List LoadPart} :
    ∀ {engine : Engine} {count : Nat}, P engine → P (engine.loadAll count parts).engine := by
  induction parts with
  | nil => intro engine count holds; exact holds
  | cons part rest ih =>
    intro engine count holds
    cases part with
    | notAnArray type => exact holds
    | resource type item =>
      rw [loadAll]
      cases inserted : engine.insert type item with
      | error _ => exact holds
      | ok next => exact ih (kept engine type item next holds inserted)

theorem step_kept (kept : Kept P) {engine : Engine} (holds : P engine) (s : EngineStep) :
    P (engine.step s) := by
  cases s with
  | insert type item =>
    rw [step]
    cases accepted : engine.insert type item with
    | error _ => exact holds
    | ok next => exact kept engine type item next holds accepted
  | load text =>
    rw [step, load]
    split
    · rw [loadEntries_eq_loadAll]
      exact loadAll_kept kept holds
    · exact holds

/-- What holds of an empty engine and is kept by every accepted resource holds after every
session. -/
theorem after_kept (kept : Kept P) {schema : Schema} (start : P (ofSchema schema))
    (steps : List EngineStep) : P (after schema steps) := by
  unfold after
  generalize ofSchema schema = engine at start
  induction steps generalizing engine with
  | nil => exact start
  | cons s rest ih => exact ih _ (step_kept kept start s)

theorem keys_nodup_after (schema : Schema) (steps : List EngineStep) :
    (Keyed.keys (after schema steps).store.collections).Nodup := by
  refine after_kept (P := fun engine => (Keyed.keys engine.store.collections).Nodup) ?_ .nil steps
  intro engine type item next distinct accepted
  obtain ⟨row, _, _, _, rfl⟩ := stored_of_insert accepted
  simp only [Store.insert, Keyed.keys_set]
  split
  · exact distinct
  · rename_i isNew
    rw [← List.concat_eq_append]
    exact distinct.concat isNew

end Engine

/-! ## What is stored -/

theorem Store.mem_items_insert {store : Store} {type other : String} {item stored : Json}
    (member : stored ∈ (store.insert type item).items other) :
    (other = type ∧ stored = item) ∨ stored ∈ store.items other := by
  rw [items_insert] at member
  split at member
  · rename_i same
    rw [List.mem_append, List.mem_singleton] at member
    exact member.symm.imp_left fun new => ⟨same.symm, new⟩
  · exact .inr member

/-- What a value that is stored under a type has to be. -/
structure Schema.Storable (schema : Schema) (type : String) (item : Json) : Prop where
  known : (schema.type? type).isSome
  isObject : Engine.isObject item = true
  wellTagged : schema.wellTagged type item = true

/-- An engine over a schema with nothing stored that is not well tagged for its type. -/
structure Engine.Tagged (schema : Schema) (engine : Engine) : Prop where
  sameSchema : engine.schema = schema
  stored : ∀ type, ∀ item ∈ engine.store.items type, schema.Storable type item

namespace Engine.Tagged

variable {schema : Schema} {engine : Engine}

theorem insert (coherent : schema.Coherent) (tagged : Tagged schema engine) {type : String}
    {item : Json} {next : Engine} (accepted : engine.insert type item = .ok next) :
    Tagged schema next := by
  obtain ⟨row, known, isTagged, isObject, rfl⟩ := stored_of_insert accepted
  rw [tagged.sameSchema] at known isTagged
  refine ⟨tagged.sameSchema, ?_⟩
  intro other old member
  rcases Store.mem_items_insert member with ⟨rfl, rfl⟩ | before
  · exact ⟨known, isObject, coherent.tag_wellTagged item isTagged⟩
  · exact tagged.stored other old before

/-- Every session leaves an engine that holds well-tagged objects only. -/
theorem after (coherent : schema.Coherent) (steps : List EngineStep) :
    Tagged schema (Engine.after schema steps) :=
  after_kept (fun _ _ _ _ tagged accepted => insert coherent tagged accepted)
    ⟨rfl, fun _ item member => by cases member⟩ steps

theorem storable_of_mem (tagged : Tagged schema engine)
    (once : (Keyed.keys engine.store.collections).Nodup) :
    ∀ collection ∈ engine.store.collections, ∀ item ∈ collection.2,
      schema.Storable collection.1 item := by
  intro collection isCollection item member
  refine tagged.stored collection.1 item ?_
  rw [Store.items, Keyed.lookup?_of_mem once isCollection]
  exact member

end Engine.Tagged

/-! ## What plans read -/

theorem Engine.Tagged.execute_eq {schema : Schema} {engine : Engine}
    (tagged : engine.Tagged schema) (sorter : Sorter KeyedRow) (query : Query) :
    engine.execute sorter query = (Evaluator.plain schema engine.store sorter).execute query := by
  rw [Engine.execute, Engine.evaluator, tagged.sameSchema]

/-- Every attribute of every stored resource passes a test, at any depth. -/
def Store.AttributesPass (schema : Schema) (test : AttributeTest) (store : Store) : Prop :=
  ∀ collection ∈ store.collections, ∀ item ∈ collection.2, schema.attributesPass test item = true

instance (schema : Schema) (test : AttributeTest) (store : Store) :
    Decidable (store.AttributesPass schema test) :=
  inferInstanceAs (Decidable (∀ collection ∈ store.collections, ∀ item ∈ collection.2,
    schema.attributesPass test item = true))

theorem Store.AttributesPass.items {schema : Schema} {test : AttributeTest} {store : Store}
    (passes : store.AttributesPass schema test) {type : String} :
    ∀ item ∈ store.items type, schema.attributesPass test item = true := by
  intro item member
  unfold Store.items at member
  cases found : Keyed.lookup? type store.collections with
  | none =>
    rw [found] at member
    cases member
  | some items =>
    rw [found] at member
    exact passes (type, items) (Keyed.mem_of_lookup? found) item member

/-- The stored resources of a type, then those of its derived types. -/
def Schema.storedRows (schema : Schema) (store : Store) (type : ResourceType) : List Json :=
  (type :: schema.descendants type).flatMap fun derived => store.items derived.name

theorem Evaluator.runWith_source {evaluator : Evaluator} {type : ResourceType}
    (found : evaluator.schema.type? type.name = some type) (env : Env) :
    evaluator.runWith (.source type.name type.element) [] env =
      .ok (evaluator.schema.storedRows evaluator.store type) := by
  rw [runWith, scan, found]
  rfl

/-- What is stored under a type or a type below it is a resource of that type. -/
theorem Engine.Tagged.resource_of_mem_storedRows {schema : Schema} {engine : Engine}
    {test : AttributeTest} (coherent : schema.Coherent) (tagged : engine.Tagged schema)
    (passes : engine.store.AttributesPass schema test) {type : ResourceType}
    (known : type ∈ schema.types) :
    ∀ row ∈ schema.storedRows engine.store type, schema.Resource test type.name row := by
  intro row member
  obtain ⟨derived, isDerived, stored⟩ := List.mem_flatMap.mp member
  have resource : schema.Resource test derived.name row :=
    ⟨(tagged.stored _ row stored).wellTagged, passes.items row stored⟩
  rcases List.mem_cons.mp isDerived with same | below
  · rw [← same]
    exact resource
  · exact resource.of_derived coherent (coherent.mem_descendants known below).2

end LayeredQuery
