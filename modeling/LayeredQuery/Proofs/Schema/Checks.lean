import LayeredQuery.Schema.Build

/-!
# What lets checks pass

Each check of a list of types goes through a list up to the first item that is refused. So it passes
exactly when nothing in the list is refused, and the order of the list only decides which fault is
reported.
-/

set_option autoImplicit false

namespace LayeredQuery

namespace Schema

variable {types : List ResourceType}

/-! ## Names -/

theorem checkPublicNames_iff {names : List String} :
    checkPublicNames names = .ok () ↔ ∀ name ∈ names, isPublicName name = true := by
  induction names with
  | nil => exact ⟨fun _ _ => nofun, fun _ => rfl⟩
  | cons name rest ih =>
    rw [checkPublicNames, checkPublicName, List.forall_mem_cons, ← ih]
    cases isPublicName name <;> simp

theorem checkNames_iff {type : ResourceType} :
    checkNames type = .ok () ↔ isPublicName type.name = true ∧ isElementName type.element = true ∧
      (∀ field ∈ type.fields, isPublicName field.name = true) ∧
      isPublicName type.idField = true := by
  have fields : checkPublicNames (type.fields.map Field.name ++ [type.idField]) = .ok () ↔
      (∀ field ∈ type.fields, isPublicName field.name = true) ∧
        isPublicName type.idField = true := by
    rw [checkPublicNames_iff, List.forall_mem_append, List.forall_mem_map, List.forall_mem_singleton]
  rw [← fields, checkNames, checkPublicName]
  cases isPublicName type.name <;> cases isElementName type.element <;> simp

def Differ (x y : ResourceType) : Prop :=
  x.name ≠ y.name ∧ x.element ≠ y.element

theorem registerAll_cons_iff {earlier : List ResourceType} {type : ResourceType} :
    registerAll earlier (type :: types) = .ok () ↔ checkNames type = .ok () ∧
      (∀ other ∈ earlier, Differ other type) ∧ registerAll (earlier ++ [type]) types = .ok () := by
  have differ : (∀ other ∈ earlier, Differ other type) ↔
      (earlier.any fun other => other.name = type.name) = false ∧
        (earlier.any fun other => other.element = type.element) = false := by
    simp [Differ, forall_and]
  rw [differ, registerAll]
  cases checkNames type <;> cases earlier.any fun other => other.element = type.element <;>
    cases earlier.any fun other => other.name = type.name <;> simp

theorem registerAll_iff {earlier : List ResourceType} :
    registerAll earlier types = .ok () ↔ (∀ type ∈ types, checkNames type = .ok ()) ∧
      (∀ other ∈ earlier, ∀ type ∈ types, Differ other type) ∧ types.Pairwise Differ := by
  induction types generalizing earlier with
  | nil => exact ⟨fun _ => ⟨nofun, fun _ _ => nofun, .nil⟩, fun _ => rfl⟩
  | cons type rest ih =>
    simp only [registerAll_cons_iff, ih, List.forall_mem_append, List.forall_mem_singleton,
      List.forall_mem_cons, List.pairwise_cons]
    constructor
    · rintro ⟨named, isNew, allNamed, ⟨areNew, differ⟩, distinct⟩
      exact ⟨⟨named, allNamed⟩, fun other member => ⟨isNew other member, areNew other member⟩,
        differ, distinct⟩
    · rintro ⟨⟨named, allNamed⟩, areNew, differ, distinct⟩
      exact ⟨named, fun other member => (areNew other member).1, allNamed,
        ⟨fun other member => (areNew other member).2, differ⟩, distinct⟩

/-! ## Base types and fields -/

theorem checkBases_iff {checked : List ResourceType} :
    checkBases types checked = .ok () ↔
      ∀ type ∈ checked, checkBasesFrom types type.name types.length type = .ok () := by
  induction checked with
  | nil => exact ⟨fun _ _ => nofun, fun _ => rfl⟩
  | cons type rest ih =>
    rw [checkBases, List.forall_mem_cons, ← ih]
    cases checkBasesFrom types type.name types.length type <;> simp

theorem checkFields_iff {type : ResourceType} {fields : List Field} :
    checkFields types type fields = .ok () ↔ ∀ field ∈ fields,
      checkTarget types type field = .ok () ∧ isRedeclared types type field.name = false := by
  induction fields with
  | nil => exact ⟨fun _ _ => nofun, fun _ => rfl⟩
  | cons field rest ih =>
    rw [checkFields, List.forall_mem_cons, ← ih]
    cases checkTarget types type field <;> cases isRedeclared types type field.name <;> simp

theorem checkAllFields_iff {checked : List ResourceType} :
    checkAllFields types checked = .ok () ↔
      ∀ type ∈ checked, checkFields types type type.fields = .ok () := by
  induction checked with
  | nil => exact ⟨fun _ _ => nofun, fun _ => rfl⟩
  | cons type rest ih =>
    rw [checkAllFields, List.forall_mem_cons, ← ih]
    cases checkFields types type type.fields <;> simp

end Schema

end LayeredQuery
